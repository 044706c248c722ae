import GlyphLine.Text.Basic

/-!
# Words of a command line

The words of a command line are options, values of options, and operands.  A word that
begins with two hyphens is the long name of an option, one that begins with a hyphen and
more its short name.  The value of an option stands behind an equals sign, directly
behind a short name, or in the next word, which must not look like an option then.  Two
hyphens alone end the options.

Words are read from the first to the last, and the first one that cannot be understood
or that asks for something else ends the reading.

* `CommandOption`: the options of a command.
* `readWords`: what the words set.
-/

namespace GlyphLine
namespace Command

/-- Why words are refused. -/
inductive Refusal where
  | unexpected (word : String)
  | noValue (option : String)
  | excessValue (option : String)
  | repeated (option : String)
  | badValue (option value : String)
  | missing (option : String)
  | unknownTopic (word : String)
  deriving DecidableEq, Repr

/-- The message of a refusal. -/
def Refusal.message : Refusal → String
  | .unexpected word => "unexpected argument '" ++ word ++ "'"
  | .noValue option => "a value is required for '" ++ option ++ "'"
  | .excessValue option => "'" ++ option ++ "' takes no value"
  | .repeated option => "'" ++ option ++ "' cannot be used several times"
  | .badValue option value => "invalid value '" ++ value ++ "' for '" ++ option ++ "'"
  | .missing option => "'" ++ option ++ "' is required"
  | .unknownTopic word => "unrecognized subcommand '" ++ word ++ "'"

/-- What ends the reading of words before the last one. -/
inductive Stop where
  | help
  | version
  | refused (why : Refusal)
  deriving DecidableEq, Repr

/-- What an option does to what has been set so far. -/
inductive Meaning (σ : Type) where
  | help
  | version
  | switch (set : σ → Except Refusal σ)
  | value (set : String → σ → Except Refusal σ)

/-- An option of a command. -/
structure CommandOption (σ : Type) where
  long : String
  short : Option Char := none
  meaning : Meaning σ

namespace CommandOption

variable {σ : Type}

/-- How an option is named in messages. -/
def label (long : String) : String := "--" ++ long

/-- The option that asks for help. -/
def help : CommandOption σ := ⟨"help", some 'h', .help⟩

/-- The option that asks for the version. -/
def version : CommandOption σ := ⟨"version", some 'V', .version⟩

/-- An option without a value, which may be given once. -/
def switch (long : String) (isSet : σ → Bool) (set : σ → σ) : CommandOption σ :=
  ⟨long, none, .switch fun s => if isSet s then .error (.repeated (label long)) else .ok (set s)⟩

/-- An option with a value, which may be given once and has to be read. -/
def valueOf {α : Type} (long : String) (short : Option Char) (read : String → Option α)
    (get : σ → Option α) (put : α → σ → σ) : CommandOption σ :=
  ⟨long, short, .value fun v s =>
    match read v, get s with
    | none, _ => .error (.badValue (label long) v)
    | _, some _ => .error (.repeated (label long))
    | some a, none => .ok (put a s)⟩

/-- An option whose value may be any text. -/
def text (long : String) (short : Option Char) (get : σ → Option String)
    (put : String → σ → σ) : CommandOption σ := valueOf long short some get put

end CommandOption

/-- What has been set by a word, or the option that awaits its value in the next one. -/
inductive Progress (σ : Type) where
  | done (state : σ)
  | awaiting (option : String) (set : String → σ → Except Refusal σ) (state : σ)

variable {σ : Type}

/-- A result that may be a refusal, as a progress. -/
def progressOf (r : Except Refusal σ) : Except Stop (Progress σ) :=
  match r with
  | .ok s => .ok (.done s)
  | .error why => .error (.refused why)

/-- What an option does, with the value that is attached to it, if one is. -/
def CommandOption.apply (o : CommandOption σ) (value : Option String) (s : σ) :
    Except Stop (Progress σ) :=
  let name := CommandOption.label o.long
  match o.meaning, value with
  | .help, none => .error .help
  | .version, none => .error .version
  | .switch set, none => progressOf (set s)
  | .value set, none => .ok (.awaiting name set s)
  | .value set, some v => progressOf (set v s)
  | _, some _ => .error (.refused (.excessValue name))

/-- The name in front of the first equals sign, and the value behind it, if there is
one. -/
def splitValue (cs : List Char) : String × Option String :=
  match cs.span (· != '=') with
  | (name, '=' :: value) => (String.ofList name, some (String.ofList value))
  | (name, _) => (String.ofList name, none)

/-- A long name, behind its hyphens. -/
def readLong (options : List (CommandOption σ)) (body : List Char) (s : σ) :
    Except Stop (Progress σ) :=
  let (name, value) := splitValue body
  match options.find? fun o => o.long == name with
  | some o => o.apply value s
  | none => .error (.refused (.unexpected (CommandOption.label name)))

/-- The value that is attached to a short name. -/
def attached? : List Char → Option String
  | [] => none
  | '=' :: cs => some (String.ofList cs)
  | cs => some (String.ofList cs)

/-- Short names, behind their hyphen.  The first one that takes a value has what follows
it as its value. -/
def readShort (options : List (CommandOption σ)) : List Char → σ → Except Stop (Progress σ)
  | [], s => .ok (.done s)
  | c :: cs, s =>
    match options.find? fun o => o.short == some c with
    | none => .error (.refused (.unexpected (String.ofList ['-', c])))
    | some o =>
      match o.meaning with
      | .value _ => o.apply (attached? cs) s
      | .switch set =>
        match set s with
        | .ok s => readShort options cs s
        | .error why => .error (.refused why)
      | _ => o.apply none s

/-- Whether a word looks like an option. -/
def looksLikeOption (w : String) : Bool := Text.startsWith "-" w && w != "-"

/-- A word that is no value and does not end the options. -/
def readWord (options : List (CommandOption σ)) (operand : String → σ → Option σ) (w : String)
    (s : σ) : Except Stop (Progress σ) :=
  match w.toList with
  | '-' :: '-' :: body => readLong options body s
  | '-' :: c :: body => readShort options (c :: body) s
  | _ =>
    match operand w s with
    | some s => .ok (.done s)
    | none => .error (.refused (.unexpected w))

/-- Words all of which are operands. -/
def readOperands (operand : String → σ → Option σ) : List String → σ → Except Stop σ
  | [], s => .ok s
  | w :: ws, s =>
    match operand w s with
    | some s => readOperands operand ws s
    | none => .error (.refused (.unexpected w))

/-- What words set. -/
def readWords (options : List (CommandOption σ)) (operand : String → σ → Option σ) :
    List String → σ → Except Stop σ
  | [], s => .ok s
  | w :: ws, s =>
    if w = "--" then readOperands operand ws s
    else
      match readWord options operand w s with
      | .error stop => .error stop
      | .ok (.done s) => readWords options operand ws s
      | .ok (.awaiting name set s) =>
        match ws with
        | [] => .error (.refused (.noValue name))
        | v :: ws =>
          if looksLikeOption v then .error (.refused (.noValue name))
          else
            match set v s with
            | .ok s => readWords options operand ws s
            | .error why => .error (.refused why)

end Command
end GlyphLine
