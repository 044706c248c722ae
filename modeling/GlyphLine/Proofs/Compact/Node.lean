import GlyphLine.Policy.Yaml
import GlyphLine.Proofs.Compact.Basic
import GlyphLine.Proofs.Yaml.Scalar

/-!
# The structure of a one-line text as YAML

A one-line JSON text is also a YAML text, with brackets and braces for its lists and objects
and quotes around its strings.  Here are the tokens that it has as such a text and the node
that they describe, and the readers of nodes take this node apart as the value has been put
together.

* `Compact.tokens`, `Compact.node`: the tokens and the node of a value.
* `Yaml.ofTokens_tokens`: the tokens describe the node.
* `Yaml.Takes`: that a reader finds a value in the node of another.
* `Yaml.takes_bool`, `Yaml.takes_whole`, `Yaml.takes_string`, `Yaml.takes_null`,
  `Yaml.Takes.some`, `Yaml.takes_list`, `Yaml.takes_table`, `Yaml.takes_record`: each kind of
  reader.
-/

namespace GlyphLine

namespace Compact

open Yaml (Token Node)

/-! ## Tokens and nodes -/

/-- The token of the comma in front of an item or an entry that is not the first. -/
def commaToken (first : Bool) : List Token := if first then [] else [.comma]

mutual

/-- The tokens of a value. -/
def tokens : Compact → List Token
  | .null => [.scalar true "null"]
  | .bool b => [.scalar true (if b then "true" else "false")]
  | .whole n => [.scalar true (toString n)]
  | .string s => [.scalar false s.text]
  | .list vs => .listStart :: itemTokens true vs
  | .map es => .mapStart :: entryTokens true es

/-- The tokens of the items of a list, and of the bracket behind them. -/
def itemTokens (first : Bool) : List Compact → List Token
  | [] => [.listEnd]
  | v :: vs => commaToken first ++ (v.tokens ++ itemTokens false vs)

/-- The tokens of the entries of an object, and of the brace behind them. -/
def entryTokens (first : Bool) : List (Key × Compact) → List Token
  | [] => [.mapEnd]
  | (k, v) :: es =>
    commaToken first ++ .key :: .scalar false k.text :: .value ::
      (v.tokens ++ entryTokens false es)

end

/-- The node of a key. -/
def keyNode (k : Key) : Node := .scalar none false k.text

mutual

/-- The node of a value. -/
def node : Compact → Node
  | .null => .scalar none true "null"
  | .bool b => .scalar none true (if b then "true" else "false")
  | .whole n => .scalar none true (toString n)
  | .string s => .scalar none false s.text
  | .list vs => .sequence none (itemNodes vs)
  | .map es => .mapping none (entryNodes es)

/-- The nodes of the items of a list. -/
def itemNodes : List Compact → List Node
  | [] => []
  | v :: vs => v.node :: itemNodes vs

/-- The nodes of the entries of an object. -/
def entryNodes : List (Key × Compact) → List (Node × Node)
  | [] => []
  | (k, v) :: es => (keyNode k, v.node) :: entryNodes es

end

end Compact

namespace Yaml
namespace Reading

open GlyphLine.Compact

/-! ## Nodes from tokens -/

theorem node_scalar (rounds : Nat) (inBlock bare : Bool) (s : Reading) (isPlain : Bool)
    (text : String) (rest : List Token) :
    Reading.node (rounds + 1) inBlock bare { s with tokens := .scalar isPlain text :: rest } =
      .ok (.scalar none isPlain text, { s with tokens := rest, size := s.size + 1 }) := by
  rfl

/-- The tokens with which a value begins. -/
inductive StartsValue : Token → Prop where
  | scalar (isPlain : Bool) (text : String) : StartsValue (.scalar isPlain text)
  | listStart : StartsValue .listStart
  | mapStart : StartsValue .mapStart

theorem tokens_eq_cons (v : Compact) : ∃ t ts, v.tokens = t :: ts ∧ StartsValue t := by
  cases v with
  | null => exact ⟨_, _, rfl, .scalar ..⟩
  | bool b => exact ⟨_, _, rfl, .scalar ..⟩
  | whole n => exact ⟨_, _, rfl, .scalar ..⟩
  | string s => exact ⟨_, _, rfl, .scalar ..⟩
  | list vs => exact ⟨_, _, rfl, .listStart⟩
  | map es => exact ⟨_, _, rfl, .mapStart⟩

/-- The tokens of a value are read as its node, in front of any others. -/
def Yields (v : Compact) : Prop :=
  ∀ (rounds : Nat) (inBlock bare : Bool) (s : Reading) (rest : List Token),
    v.tokens.length ≤ rounds → ∃ size,
      node rounds inBlock bare { s with tokens := v.tokens ++ rest } =
        .ok (v.node, { s with tokens := rest, size := size })

/-- One round through a list: an item is read, and the loop goes on behind it. -/
theorem flowItems_step {rounds : Nat} {s s' : Reading} {v : Compact} {n : Node}
    {rest : List Token}
    (h : node rounds false false { s with tokens := v.tokens ++ rest } = .ok (n, s'))
    (first : Bool) (done : List Node) :
    flowItems (rounds + 1) first done
        { s with tokens := commaToken first ++ (v.tokens ++ rest) } =
      flowItems rounds false (n :: done) s' := by
  obtain ⟨t, ts, hv, ht⟩ := tokens_eq_cons v
  rw [hv, List.cons_append] at h ⊢
  cases first with
  | true => cases ht <;> simp [flowItems, commaToken, h]
  | false => cases ht <;> simp [flowItems, commaToken, drop, h]

/-- One round through an object: an entry is read, and the loop goes on behind it. -/
theorem flowEntries_step {rounds : Nat} {s s' : Reading} {v : Compact} {n : Node}
    {rest : List Token}
    (h : node (rounds + 1) false false { s with tokens := v.tokens ++ rest, size := s.size + 1 } =
      .ok (n, s'))
    (first : Bool) (k : Key) (done : List (Node × Node)) :
    flowEntries (rounds + 3) first done
        { s with tokens := commaToken first ++
          .key :: .scalar false k.text :: .value :: (v.tokens ++ rest) } =
      flowEntries (rounds + 2) false ((keyNode k, n) :: done) s' := by
  obtain ⟨t, ts, hv, ht⟩ := tokens_eq_cons v
  rw [hv, List.cons_append] at h ⊢
  cases first with
  | true =>
    cases ht <;>
      simp [flowEntries, commaToken, drop, nodeUnless, isAt, node_scalar, h, keyNode]
  | false =>
    cases ht <;>
      simp [flowEntries, commaToken, drop, nodeUnless, isAt, node_scalar, h, keyNode]

theorem length_tokens_pos (v : Compact) : 0 < v.tokens.length := by
  obtain ⟨t, ts, hv, _⟩ := tokens_eq_cons v
  rw [hv]
  exact Nat.succ_pos _

theorem length_itemTokens_pos (first : Bool) (vs : List Compact) :
    0 < (itemTokens first vs).length := by
  cases vs with
  | nil => exact Nat.lt_add_one 0
  | cons v vs =>
    have := length_tokens_pos v
    rw [itemTokens, List.length_append, List.length_append]
    omega

/-- A list is read to its end if each of its items is. -/
theorem flowItems_itemTokens {vs : List Compact} (h : ∀ v ∈ vs, Yields v) {rounds : Nat}
    {first : Bool} (hrounds : (itemTokens first vs).length ≤ rounds) (done : List Node)
    (s : Reading) (rest : List Token) : ∃ size,
      flowItems rounds first done { s with tokens := itemTokens first vs ++ rest } =
        .ok (done.reverse ++ itemNodes vs, { s with tokens := rest, size := size }) := by
  induction vs generalizing rounds first done s with
  | nil =>
    obtain ⟨rounds, rfl⟩ := Nat.exists_eq_add_of_le' hrounds
    exact ⟨s.size, by rw [itemNodes, List.append_nil]; rfl⟩
  | cons v vs ih =>
    have hitems := length_itemTokens_pos false vs
    have hv := length_tokens_pos v
    rw [itemTokens, List.length_append, List.length_append] at hrounds
    obtain ⟨rounds, rfl⟩ := Nat.exists_eq_add_of_le' (show 1 ≤ rounds by omega)
    obtain ⟨n, hn⟩ := h v List.mem_cons_self rounds false false s
      (itemTokens false vs ++ rest) (by omega)
    obtain ⟨m, hm⟩ := ih (fun w hw => h w (List.mem_cons_of_mem _ hw))
      (show (itemTokens false vs).length ≤ rounds by omega) (v.node :: done) { s with size := n }
    refine ⟨m, ?_⟩
    rw [itemTokens, List.append_assoc, List.append_assoc, flowItems_step hn, hm, itemNodes,
      List.reverse_cons, List.append_assoc, List.singleton_append]

theorem length_entryTokens_pos (first : Bool) (es : List (Key × Compact)) :
    0 < (entryTokens first es).length := by
  cases es with
  | nil => exact Nat.lt_add_one 0
  | cons e es =>
    rw [entryTokens, List.length_append, List.length_cons]
    omega

/-- An object is read to its end if each of its values is. -/
theorem flowEntries_entryTokens {es : List (Key × Compact)} (h : ∀ e ∈ es, Yields e.2)
    {rounds : Nat} {first : Bool} (hrounds : (entryTokens first es).length ≤ rounds)
    (done : List (Node × Node)) (s : Reading) (rest : List Token) : ∃ size,
      flowEntries rounds first done { s with tokens := entryTokens first es ++ rest } =
        .ok (done.reverse ++ entryNodes es, { s with tokens := rest, size := size }) := by
  induction es generalizing rounds first done s with
  | nil =>
    obtain ⟨rounds, rfl⟩ := Nat.exists_eq_add_of_le' hrounds
    exact ⟨s.size, by rw [entryNodes, List.append_nil]; rfl⟩
  | cons e es ih =>
    obtain ⟨k, v⟩ := e
    have hentries := length_entryTokens_pos false es
    rw [entryTokens, List.length_append, List.length_cons, List.length_cons, List.length_cons,
      List.length_append] at hrounds
    obtain ⟨rounds, rfl⟩ := Nat.exists_eq_add_of_le' (show 3 ≤ rounds by omega)
    obtain ⟨n, hn⟩ := h (k, v) List.mem_cons_self (rounds + 1) false false
      { s with size := s.size + 1 } (entryTokens false es ++ rest)
      (show v.tokens.length ≤ rounds + 1 by omega)
    obtain ⟨m, hm⟩ := ih (fun f hf => h f (List.mem_cons_of_mem _ hf))
      (show (entryTokens false es).length ≤ rounds + 2 by omega) ((keyNode k, v.node) :: done)
      { s with size := n }
    refine ⟨m, ?_⟩
    rw [entryTokens, List.append_assoc, List.cons_append, List.cons_append, List.cons_append,
      List.append_assoc, flowEntries_step hn, hm, entryNodes, List.reverse_cons,
      List.append_assoc, List.singleton_append]

/-- A scalar is read as it stands. -/
theorem yields_scalar {v : Compact} {isPlain : Bool} {text : String}
    (ht : v.tokens = [.scalar isPlain text]) (hn : v.node = .scalar none isPlain text) :
    Yields v := by
  intro rounds inBlock bare s rest hrounds
  rw [ht] at hrounds ⊢
  obtain ⟨rounds, rfl⟩ := Nat.exists_eq_add_of_le' hrounds
  exact ⟨s.size + 1, hn ▸ rfl⟩

/-- Every value is read as its node. -/
theorem yields (v : Compact) : Yields v := by
  induction v with
  | null => exact yields_scalar rfl rfl
  | bool b => exact yields_scalar rfl rfl
  | whole n => exact yields_scalar rfl rfl
  | string s => exact yields_scalar rfl rfl
  | list vs ih =>
    intro rounds inBlock bare s rest hrounds
    obtain ⟨rounds, rfl⟩ := Nat.exists_eq_add_of_le' (Nat.le_trans (Nat.succ_pos _) hrounds)
    obtain ⟨n, hn⟩ := flowItems_itemTokens ih (Nat.le_of_succ_le_succ hrounds) []
      { s with size := s.size + 1 } rest
    refine ⟨n + 1, ?_⟩
    show (flowItems rounds true []
      { s with tokens := itemTokens true vs ++ rest, size := s.size + 1 }).map _ = _
    rw [hn]
    rfl
  | map es ih =>
    intro rounds inBlock bare s rest hrounds
    obtain ⟨rounds, rfl⟩ := Nat.exists_eq_add_of_le' (Nat.le_trans (Nat.succ_pos _) hrounds)
    obtain ⟨n, hn⟩ := flowEntries_entryTokens ih (Nat.le_of_succ_le_succ hrounds) []
      { s with size := s.size + 1 } rest
    refine ⟨n + 1, ?_⟩
    show (flowEntries rounds true []
      { s with tokens := entryTokens true es ++ rest, size := s.size + 1 }).map _ = _
    rw [hn]
    rfl

end Reading

/-- The document of the tokens of a value is its node. -/
theorem ofTokens_tokens (v : Compact) :
    ∃ size, Document.ofTokens v.tokens = .ok ⟨some v.node, [], size⟩ := by
  have hroot : Reading.root { tokens := v.tokens } =
      Reading.node (3 * v.tokens.length + 3) true false { tokens := v.tokens } := by
    obtain ⟨t, ts, hv, ht⟩ := Reading.tokens_eq_cons v
    rw [hv]
    cases ht <;> rfl
  obtain ⟨size, hsize⟩ := Reading.yields v (3 * v.tokens.length + 3) true false
    { tokens := v.tokens } [] (by omega)
  rw [List.append_nil] at hsize
  refine ⟨size, ?_⟩
  have hne : v.tokens ≠ [] := List.length_pos_iff.1 (Reading.length_tokens_pos v)
  unfold Document.ofTokens
  split
  · next heq => exact absurd heq hne
  · rw [hroot, hsize]
    rfl

/-! ## Readers -/

variable {α σ ι : Type}

/-- A reader finds `a` in the node of the written value `v`, whatever the document has besides
and however many aliases have been followed. -/
def Takes (r : Reader α) (v : Compact) (a : α) : Prop :=
  ∀ (d : Document) (followed : Nat), r d v.node followed = .ok (a, followed)

/-- The node of a value is no alias. -/
theorem follow_node (d : Document) (v : Compact) (followed : Nat) :
    follow d v.node followed = .ok (v.node, followed) := by
  cases v with
  | null => rfl
  | bool b => rfl
  | whole n => rfl
  | string s => rfl
  | list vs => rfl
  | map es => rfl

theorem Takes.map {β : Type} {r : Reader α} {v : Compact} {a : α} (h : Takes r v a) (f : α → β) :
    Takes (r.map f) v (f a) := by
  intro d followed
  rw [Reader.map, h d followed]
  rfl

/-- A scalar that is accepted for what it stands for. -/
theorem takes_scalar {v : Compact} {isPlain : Bool} {text : String} {p : Plain}
    (hv : v.node = .scalar none isPlain text) (hp : Plain.ofScalar none isPlain text = .ok p)
    {choose : Plain → Option α} {a : α} (ha : choose p = some a) :
    Takes (Reader.scalar choose) v a := by
  intro d followed
  rw [Reader.scalar, follow_node, hv]
  dsimp only
  rw [hp]
  dsimp only
  rw [ha]

theorem takes_bool (b : Bool) {choose : Plain → Option α} {a : α}
    (ha : choose (.bool b) = some a) : Takes (Reader.scalar choose) (.bool b) a := by
  have hplain : Plain.ofScalar none true (if b then "true" else "false") = .ok (.bool b) := by
    cases b with
    | true => rfl
    | false => rfl
  exact takes_scalar rfl hplain ha

theorem takes_whole {n : Int} (hn : Width.fits 128 n = true) {choose : Plain → Option α} {a : α}
    (ha : choose (.whole n) = some a) : Takes (Reader.scalar choose) (.whole n) a := by
  have hplain : Plain.ofScalar none true (toString n) = .ok (.whole n) :=
    congrArg Except.ok (Plain.of_toString hn)
  exact takes_scalar rfl hplain ha

theorem takes_string (s : Spelling) {choose : Plain → Option α} {a : α}
    (ha : choose (.text s.text) = some a) : Takes (Reader.scalar choose) (.string s) a := by
  have hquoted : Plain.ofScalar none false s.text = .ok (.text s.text) := rfl
  exact takes_scalar rfl hquoted ha

theorem takes_null (r : Reader α) : Takes r.optional .null none := by
  intro d followed
  rfl

/-- Only null means that there is no value. -/
theorem isAbsent_node {v : Compact} (h : v ≠ .null) : isAbsent v.node = .ok false := by
  cases v with
  | null => exact absurd rfl h
  | bool b =>
    cases b with
    | true => rfl
    | false => rfl
  | whole n =>
    show Except.ok ((toString n).isEmpty || Plain.isNull (toString n)) = _
    rw [Plain.isEmpty_toString, Plain.isNull_toString]
    rfl
  | string s => rfl
  | list vs => rfl
  | map es => rfl

/-- What is not null is left to the reader for values that are there. -/
theorem Takes.some {r : Reader α} {v : Compact} {a : α} (h : Takes r v a) (hv : v ≠ .null) :
    Takes r.optional v (some a) := by
  intro d followed
  rw [Reader.optional, follow_node]
  dsimp only
  rw [isAbsent_node hv]
  exact h.map Option.some d followed

theorem readItems_itemNodes {r : Reader α} {form : ι → Compact} {value : ι → α} {is : List ι}
    (h : ∀ i ∈ is, Takes r (form i) (value i)) (d : Document) (done : List α) (followed : Nat) :
    readItems r d (Compact.itemNodes (is.map form)) done followed =
      .ok (done.reverse ++ is.map value, followed) := by
  induction is generalizing done with
  | nil => rw [List.map_nil, Compact.itemNodes, readItems, List.map_nil, List.append_nil]
  | cons i is ih =>
    rw [List.map_cons, Compact.itemNodes, readItems, h i List.mem_cons_self]
    dsimp only
    rw [ih fun j hj => h j (List.mem_cons_of_mem _ hj), List.reverse_cons, List.append_assoc,
      List.singleton_append, List.map_cons]

theorem takes_list {r : Reader α} {form : ι → Compact} {value : ι → α} {is : List ι}
    (h : ∀ i ∈ is, Takes r (form i) (value i)) :
    Takes r.list (.list (is.map form)) (is.map value) := by
  intro d followed
  exact readItems_itemNodes h d [] followed

/-- An object is read to its end if the step that reads a value goes on, from each state that
is met, to the one expected. -/
theorem readEntries_entryNodes {step : σ → String → Node → Nat → Except Fault (σ × Nat)}
    {next : σ → ι → σ} {key : ι → Key} {form : ι → Compact} {is : List ι} {state : σ}
    {followed : Nat}
    (hstep : Along next (fun s i =>
      step s (key i).text (form i).node followed = .ok (next s i, followed)) is state)
    (d : Document) :
    readEntries step d (Compact.entryNodes (is.map fun i => (key i, form i))) state followed =
      .ok (is.foldl next state, followed) := by
  induction is generalizing state with
  | nil => rfl
  | cons i is ih =>
    have hkey : keyText d (Compact.keyNode (key i)) followed = .ok ((key i).text, followed) := rfl
    rw [List.map_cons, Compact.entryNodes, readEntries, hkey]
    dsimp only
    rw [hstep.1]
    dsimp only
    rw [ih hstep.2, List.foldl_cons]

/-- How the reader of a table goes on from a key. -/
def tableStep (r : Reader α) (d : Document) (t : ByName α) (name : String) (n : Node)
    (followed : Nat) : Except Fault (ByName α × Nat) :=
  (r d n followed).map fun (a, k) => (t.insert name a, k)

theorem takes_table {r : Reader α} {key : ι → Key} {form : ι → Compact} {value : ι → α}
    {is : List ι} (h : ∀ i ∈ is, Takes r (form i) (value i)) :
    Takes r.table (.map (is.map fun i => (key i, form i)))
      (ByName.ofList (is.map fun i => ((key i).text, value i))) := by
  intro d followed
  have hstep : Along (fun t i => t.insert (key i).text (value i))
      (fun t i => tableStep r d t (key i).text (form i).node followed =
        .ok (t.insert (key i).text (value i), followed)) is ByName.empty := by
    refine Along.of_forall fun i hi t => ?_
    rw [tableStep, h i hi d followed]
    rfl
  show readEntries (tableStep r d) d (Compact.entryNodes (is.map fun i => (key i, form i)))
    ByName.empty followed = _
  rw [readEntries_entryNodes hstep, ByName.ofList, List.foldl_map]

/-- How the reader of a record goes on from a key. -/
def recordStep (fields : List (Field Reader σ)) (d : Document) (state : σ × List String)
    (name : String) (n : Node) (followed : Nat) : Except Fault ((σ × List String) × Nat) :=
  match fields.find? fun f => f.name == name with
  | none => .ok (state, followed)
  | some field =>
    if state.2.contains name then .error (.duplicateField name)
    else (field.read d n followed).map fun (set, k) => ((set state.1, name :: state.2), k)

/-- A record of which no field is given twice. -/
theorem takes_record {fields : List (Field Reader σ)} {blank : σ} {key : ι → Key}
    {form : ι → Compact} {set : ι → σ → σ} {is : List ι}
    (hkeys : (is.map fun i => (key i).text).Nodup)
    (h : ∀ i ∈ is, ∃ field, (fields.find? fun f => f.name == (key i).text) = some field ∧
      Takes field.read (form i) (set i)) :
    Takes (Reader.record fields blank) (.map (is.map fun i => (key i, form i)))
      (is.foldl (fun s i => set i s) blank) := by
  intro d followed
  have hstep : Along (nextField (fun i => (key i).text) set)
      (fun s i => recordStep fields d s (key i).text (form i).node followed =
        .ok (nextField (fun i => (key i).text) set s i, followed)) is (blank, []) := by
    refine (along_nextField set hkeys blank).imp fun i hi s hnew => ?_
    obtain ⟨field, hfind, hread⟩ := h i hi
    rw [recordStep, hfind]
    dsimp only
    rw [hnew, if_neg Bool.false_ne_true, hread d followed]
    rfl
  show (readEntries (recordStep fields d) d (Compact.entryNodes (is.map fun i => (key i, form i)))
    (blank, []) followed).map _ = _
  rw [readEntries_entryNodes hstep]
  show Except.ok ((is.foldl (nextField (fun i => (key i).text) set) (blank, [])).1, followed) = _
  rw [foldl_nextField]

end Yaml
end GlyphLine
