import GlyphLine.Proofs.Compact.Node
import GlyphLine.Proofs.Compact.Scalar

/-!
# The tokens of a one-line text as YAML

In one line nothing depends on indentation, and what remains of the state of the tokenizer is
the place of a possible key.  The place where a value has begun is remembered if a key may
stand there, and it is forgotten at the next comma or bracket; only between a key and its
colon does it matter, and there it is near enough, as keys are short.

A round of the tokenizer is a step here, and a value is read in some steps, no more than it
has characters.

* `Layout.Leads`: that reading goes on from one state as from another.
* `Layout.scans`: a value is read as its tokens.
* `tokens_chars`: the tokens of the text of an object.
-/

namespace GlyphLine
namespace Yaml
namespace Layout

/-! ## Steps -/

/-- Reading goes on from `s'` as from `s` after some rounds, of which there are no more than
characters between the two. -/
def Leads (s s' : Layout) : Prop :=
  ∃ n, n + s'.cursor.rest.length ≤ s.cursor.rest.length ∧
    ∀ rounds, finish (rounds + n) s = finish rounds s'

theorem Leads.refl (s : Layout) : Leads s s :=
  ⟨0, Nat.le_of_eq (Nat.zero_add _), fun _ => rfl⟩

theorem Leads.trans {s t u : Layout} (h : Leads s t) (h' : Leads t u) : Leads s u := by
  obtain ⟨m, hm, hst⟩ := h
  obtain ⟨n, hn, htu⟩ := h'
  refine ⟨n + m, by omega, fun rounds => ?_⟩
  rw [← Nat.add_assoc, hst, htu]

/-- Nothing has been indented. -/
structure InLine (s : Layout) : Prop where
  indent : s.indent = -1
  outer : s.outerIndents = []

/-- The characters with which a token begins and before which nothing is passed over. -/
def startsToken (c : Char) : Bool := !isGapOrBreak c && c != '#' && c != byteOrderMark

theorem skip_eq {k : Cursor} {c : Char} {rest : List Char} (hk : k.rest = c :: rest)
    {p : Char → Bool} (hp : p c = false) : k.skip p = k := by
  have hspan : k.rest.span p = ([], k.rest) := by
    rw [hk, List.span_eq_takeWhile_dropWhile,
      List.takeWhile_cons_of_neg (by rw [hp]; exact Bool.false_ne_true),
      List.dropWhile_cons_of_neg (by rw [hp]; exact Bool.false_ne_true)]
  rw [Cursor.skip, Cursor.run, hspan]
  rfl

theorem skip_nil {k : Cursor} (hk : k.rest = []) (p : Char → Bool) : k.skip p = k := by
  obtain ⟨rest, index, line, column⟩ := k
  obtain rfl : rest = [] := hk
  rfl

/-- At the beginning of a token nothing is passed over. -/
theorem skipToToken_eq {s : Layout} {c : Char} {rest : List Char}
    (hs : s.cursor.rest = c :: rest) (hc : startsToken c = true) (rounds : Nat) :
    skipToToken (rounds + 1) s = s := by
  rw [startsToken, Bool.and_eq_true, Bool.and_eq_true, Bool.not_eq_true', bne_iff_ne,
    bne_iff_ne] at hc
  obtain ⟨⟨hgap, hcomment⟩, hmark⟩ := hc
  rw [isGapOrBreak, isGap, Bool.or_eq_false_iff, Bool.or_eq_false_iff] at hgap
  obtain ⟨⟨hspace, htab⟩, hbreak⟩ := hgap
  have hskip (p : Bool) : s.cursor.skip (fun c => c == ' ' || (c == '\t' && p)) = s.cursor :=
    skip_eq hs (by rw [hspace, htab]; rfl)
  rw [skipToToken, Cursor.isAt_cons hs, beq_eq_false_iff_ne.2 hmark, Bool.and_false,
    if_neg Bool.false_ne_true]
  rw [hskip, Cursor.skipComment, Cursor.isAt_cons hs, beq_eq_false_iff_ne.2 hcomment,
    if_neg Bool.false_ne_true, Cursor.isAt_cons hs, hbreak, if_neg Bool.false_ne_true]

theorem closeBlocks_eq {s : Layout} (h : s.InLine) (column : Int) : s.closeBlocks column = s := by
  rw [closeBlocks, h.outer]
  split
  · rfl
  · rfl

/-- One round: a token is read where it begins. -/
theorem leads_of_next {s s₁ s' : Layout} {c : Char} {rest : List Char}
    (hs : s.cursor.rest = c :: rest) (hc : startsToken c = true)
    (hforget : s.forgetOldKey = .ok s₁) (hcursor : s₁.cursor = s.cursor) (hline : s₁.InLine)
    (hnext : s₁.next c rest = .ok s') {n : Nat} (hmoved : s'.cursor = s.cursor.advance (n + 1)) :
    Leads s s' := by
  have hlen : 1 + s'.cursor.rest.length ≤ s.cursor.rest.length := by
    show _ ≤ s.cursor.rest.length
    rw [hmoved, Cursor.advance, List.length_drop, hs, List.length_cons]
    omega
  refine ⟨1, hlen, fun rounds => ?_⟩
  have hs₁ : s₁.cursor.rest = c :: rest := hcursor ▸ hs
  rw [finish, skipToToken_eq hs hc, hforget]
  dsimp only
  rw [hs₁]
  dsimp only
  rw [closeBlocks_eq hline, hnext]

/-! ## States further on -/

/-- The state `n` characters further on, with some more tokens. -/
def ahead (s : Layout) (n : Nat) (ts : List Token) : Layout :=
  { s with
    cursor := s.cursor.advance n
    reversed := ts.reverse ++ s.reversed
    count := s.count + ts.length }

theorem ahead_ahead (s : Layout) (m n : Nat) (ts us : List Token) :
    (s.ahead m ts).ahead n us = s.ahead (m + n) (ts ++ us) := by
  simp only [ahead, Cursor.advance_advance, List.reverse_append, List.append_assoc,
    List.length_append, Nat.add_assoc]

/-- The place of a key that may begin here. -/
def place (s : Layout) : Option KeyPlace :=
  if s.keyAllowed then
    some ⟨false, s.count, s.cursor.index, s.cursor.line, s.cursor.column⟩
  else none

/-- No place is remembered at which there has to be a key. -/
def Loose (s : Layout) : Prop := ∀ p ∈ s.key, p.required = false

theorem with_key {s : Layout} {q : Option KeyPlace} (h : s.key = q) :
    ({ s with key := q } : Layout) = s := by
  subst h
  rfl

theorem loose_of_none {s : Layout} (h : s.key = none) : s.Loose := by
  intro p hp
  rw [h] at hp
  exact absurd hp (Option.not_mem_none p)

theorem dropKey_loose {s : Layout} (h : s.Loose) : s.dropKey = .ok { s with key := none } := by
  unfold dropKey
  split
  · next p hp => rw [h p hp, if_neg Bool.false_ne_true]
  · next hp => rw [with_key hp]

theorem forgetOldKey_none {s : Layout} (h : s.key = none) : s.forgetOldKey = .ok s := by
  rw [forgetOldKey, h]

/-- What may be forgotten does not matter. -/
theorem forgetOldKey_loose {s : Layout} (h : s.Loose) :
    ∃ q, s.forgetOldKey = .ok { s with key := q } ∧ ({ s with key := q } : Layout).Loose := by
  unfold forgetOldKey
  split
  · next hp => exact ⟨none, by rw [with_key hp], loose_of_none rfl⟩
  · next p hp =>
    split
    · exact ⟨none, by rw [h p hp, if_neg Bool.false_ne_true], loose_of_none rfl⟩
    · exact ⟨s.key, rfl, h⟩

/-- What is near enough is not forgotten. -/
theorem forgetOldKey_near {s : Layout} {p : KeyPlace} (hp : s.key = some p)
    (hline : p.line = s.cursor.line) (hindex : s.cursor.index ≤ p.index + 1024) :
    s.forgetOldKey = .ok s := by
  rw [forgetOldKey, hp]
  dsimp only
  rw [decide_eq_false (by omega), decide_eq_false (by omega), if_neg (by decide)]

/-- A key may begin here, but none has to. -/
theorem rememberKey_inLine {s : Layout} (h : s.InLine) (hkey : s.key = none) :
    s.rememberKey = .ok { s with key := s.place } := by
  have hcolumn : (s.indent == (s.cursor.column : Int)) = false := by
    rw [h.indent, beq_eq_false_iff_ne]
    omega
  unfold rememberKey
  rw [place]
  split
  · next hallowed =>
    dsimp only
    rw [hcolumn, Bool.and_false, dropKey_loose (loose_of_none hkey)]
    rfl
  · rw [with_key hkey]

/-! ## Brackets, commas and colons -/

/-- No mark of a document begins with another character than a dash or a point. -/
theorem atDocumentMark_of_head {k : Cursor} {c : Char} {rest : List Char}
    (hk : k.rest = c :: rest) (hdash : c ≠ '-') (hpoint : c ≠ '.') : k.atDocumentMark = false := by
  rw [Cursor.atDocumentMark, hk]
  split
  · next heq => exact absurd (List.cons.inj heq).1 hdash
  · next heq => exact absurd (List.cons.inj heq).1 hpoint
  · exact Bool.and_false _

/-- Brackets and commas begin a token, and no mark of a document. -/
theorem begins_bracket {k : Cursor} {c : Char} {rest : List Char} (hk : k.rest = c :: rest)
    (hc : c ∈ ['[', ']', '{', '}', ',']) : startsToken c = true ∧ k.atDocumentMark = false := by
  have hall : ['[', ']', '{', '}', ','].all
      (fun c => startsToken c && c != '-' && c != '.') = true := rfl
  obtain ⟨⟨hstarts, hdash⟩, hpoint⟩ : (startsToken c = true ∧ c ≠ '-') ∧ c ≠ '.' := by
    simpa using List.all_eq_true.1 hall c hc
  exact ⟨hstarts, atDocumentMark_of_head hk hdash hpoint⟩

/-- The state in which the first item of a collection begins. -/
def opened (s : Layout) (t : Token) : Layout :=
  { s.ahead 1 [t] with key := none, outerKeys := s.place :: s.outerKeys, keyAllowed := true }

/-- A bracket is opened: the place of the collection is put aside. -/
theorem leads_open {s : Layout} (hline : s.InLine) (hkey : s.key = none) {c : Char}
    {rest : List Char} (hs : s.cursor.rest = c :: rest) {t : Token}
    (hc : c = '[' ∧ t = .listStart ∨ c = '{' ∧ t = .mapStart) :
    Leads s (s.opened t) := by
  have hopen : s.openFlow t = .ok (s.opened t) := by
    rw [openFlow, rememberKey_inLine hline hkey]
    rfl
  obtain ⟨hstarts, hmark⟩ := begins_bracket hs (by rcases hc with ⟨rfl, -⟩ | ⟨rfl, -⟩ <;> decide)
  have hnext : s.next c rest = s.openFlow t := by
    rcases hc with ⟨rfl, rfl⟩ | ⟨rfl, rfl⟩
    · simp [next, hmark]
    · simp [next, hmark]
  exact leads_of_next hs hstarts (forgetOldKey_none hkey) rfl hline (hnext.trans hopen) rfl

/-- A bracket is closed: the place of the collection is remembered again. -/
theorem leads_close {s : Layout} (hline : s.InLine) (hloose : s.Loose) {p : Option KeyPlace}
    {outer : List (Option KeyPlace)} (houter : s.outerKeys = p :: outer) {c : Char}
    {rest : List Char} (hs : s.cursor.rest = c :: rest) {t : Token}
    (hc : c = ']' ∧ t = .listEnd ∨ c = '}' ∧ t = .mapEnd) :
    Leads s { s.ahead 1 [t] with key := p, outerKeys := outer, keyAllowed := false } := by
  obtain ⟨q, hforget, hq⟩ := forgetOldKey_loose hloose
  have hclose : ({ s with key := q } : Layout).closeFlow t = .ok { s.ahead 1 [t] with
      key := p, outerKeys := outer, keyAllowed := false } := by
    rw [closeFlow, dropKey_loose hq]
    dsimp only [Except.map, take, push]
    rw [houter]
    rfl
  obtain ⟨hstarts, hmark⟩ := begins_bracket hs (by rcases hc with ⟨rfl, -⟩ | ⟨rfl, -⟩ <;> decide)
  have hnext : ({ s with key := q } : Layout).next c rest =
      ({ s with key := q } : Layout).closeFlow t := by
    rcases hc with ⟨rfl, rfl⟩ | ⟨rfl, rfl⟩
    · simp [next, hmark]
    · simp [next, hmark]
  exact leads_of_next hs hstarts hforget rfl ⟨hline.indent, hline.outer⟩ (hnext.trans hclose) rfl

/-- Behind a comma the next item or entry may be, or begin with, a key. -/
theorem leads_comma {s : Layout} (hline : s.InLine) (hloose : s.Loose) {rest : List Char}
    (hs : s.cursor.rest = ',' :: rest) :
    Leads s { s.ahead 1 [.comma] with key := none, keyAllowed := true } := by
  obtain ⟨q, hforget, hq⟩ := forgetOldKey_loose hloose
  have hcomma : ({ s with key := q } : Layout).comma =
      .ok { s.ahead 1 [.comma] with key := none, keyAllowed := true } := by
    rw [comma, dropKey_loose hq]
    rfl
  obtain ⟨hstarts, hmark⟩ := begins_bracket hs (by decide)
  have hnext : ({ s with key := q } : Layout).next ',' rest =
      ({ s with key := q } : Layout).comma := by
    simp [next, hmark]
  exact leads_of_next hs hstarts hforget rfl ⟨hline.indent, hline.outer⟩ (hnext.trans hcomma) rfl

/-! ## Scalars -/

/-- In brackets, behind their first character, with no key remembered: the places where values
and keys begin. -/
structure Ready (s : Layout) : Prop where
  inLine : s.InLine
  inFlow : s.inFlow = true
  column : 0 < s.cursor.column
  key : s.key = none

/-- The state behind a value: the place where it has begun is remembered if it may be a
key. -/
def past (s : Layout) (n : Nat) (ts : List Token) : Layout :=
  { s.ahead n ts with key := s.place, keyAllowed := false }

/-- A quoted scalar. -/
theorem leads_string {s : Layout} (h : s.Ready) {t : Spelling} {rest : List Char}
    (hs : s.cursor.rest = t.chars ++ rest) :
    Leads s (s.past t.chars.length [.scalar false t.text]) := by
  have hquote : s.cursor.rest = '\"' :: (t.inner ++ ['\"'] ++ rest) := hs
  have hmark := Cursor.atDocumentMark_of_column h.column
  have hnext : s.next '\"' (t.inner ++ ['\"'] ++ rest) =
      .ok (s.past t.chars.length [.scalar false t.text]) := by
    simp only [next, hmark, Bool.and_false, Bool.false_eq_true, if_false, Char.reduceBEq,
      Bool.false_and, beq_self_eq_true, if_true]
    rw [inKey, rememberKey_inLine h.inLine h.key]
    dsimp only
    rw [Lexeme.quoted_chars hs]
    rfl
  exact leads_of_next hquote (by decide) (forgetOldKey_none h.key) rfl h.inLine hnext rfl

/-- Behind no indicator, or behind a dash and no white space, a plain scalar begins. -/
theorem next_plain {s : Layout} (hmark : s.cursor.atDocumentMark = false) {c : Char}
    {rest : List Char} (hgap : isGapOrBreak c = false)
    (hc : isIndicator c = false ∨ c = '-' ∧ Cursor.endsWord rest = false) :
    s.next c rest = s.plain := by
  rcases hc with hc | ⟨rfl, hends⟩
  · have hne (d : Char) (hd : isIndicator d = true) : (c == d) = false :=
      beq_eq_false_iff_ne.2 fun heq => Bool.false_ne_true (hc.symm.trans (heq ▸ hd))
    have hstarts : startsPlain s.inFlow c rest = true := by
      rw [startsPlain.eq_def, hgap, hc]
      rfl
    rw [next]
    simp only [hmark, hstarts, hne '%' rfl, hne '[' rfl, hne '{' rfl, hne ']' rfl, hne '}' rfl,
      hne ',' rfl, hne '-' rfl, hne '?' rfl, hne ':' rfl, hne '*' rfl, hne '&' rfl, hne '!' rfl,
      hne '|' rfl, hne '>' rfl, hne '\'' rfl, hne '\"' rfl, Bool.and_false, Bool.false_and,
      Bool.false_eq_true, if_false, if_true]
  · have hstarts : startsPlain s.inFlow '-' rest = true := by
      rw [startsPlain.eq_def]
      cases rest with
      | nil => exact absurd hends (by decide)
      | cons d rest =>
        have hd : isGap d = false := (Bool.or_eq_false_iff.1 hends).1
        dsimp only
        rw [hd]
        rfl
    simp [next, hmark, hends, hstarts]

/-- A plain scalar of one word, in front of a comma or a closing bracket. -/
theorem leads_word {s : Layout} (h : s.Ready) {c : Char} {cs rest : List Char} {d : Char}
    (hs : s.cursor.rest = (c :: cs) ++ d :: rest) (hword : ∀ e ∈ c :: cs, Lexeme.isWord e = true)
    (hstarts : startsToken c = true)
    (hc : isIndicator c = false ∨ c = '-' ∧ Cursor.endsWord (cs ++ d :: rest) = false)
    (hgap : isGapOrBreak d = false) (hd : Lexeme.isFlowIndicator d = true) :
    Leads s (s.past (c :: cs).length [.scalar true (String.ofList (c :: cs))]) := by
  have hstarts' := hstarts
  rw [startsToken, Bool.and_eq_true, Bool.and_eq_true, Bool.not_eq_true', bne_iff_ne] at hstarts'
  have hmark := Cursor.atDocumentMark_of_column h.column
  have hcomment : ∀ e ∈ (c :: cs).head?, e ≠ '#' := by
    intro e he
    obtain rfl : c = e := Option.some.inj he
    exact hstarts'.1.2
  have hread : s.plain =
      .ok (s.past (c :: cs).length [.scalar true (String.ofList (c :: cs))]) := by
    have hscalar := Lexeme.plain_word hs h.column (List.cons_ne_nil _ _) hword hcomment hgap hd
      (s.indent + 1).toNat
    rw [Layout.plain, rememberKey_inLine h.inLine h.key]
    dsimp only
    show (Lexeme.plain s.inFlow _ s.cursor).map _ = _
    rw [h.inFlow, hscalar]
    rfl
  have hnext := next_plain (s := s) hmark hstarts'.1.1 hc
  exact leads_of_next (List.cons_append ▸ hs) hstarts (forgetOldKey_none h.key) rfl h.inLine
    (hnext.trans hread) rfl

/-- Behind the scalar that is a key stands a colon: the place of the scalar is near enough, and
the token of a key is put there. -/
theorem leads_colon {s : Layout} (hline : s.InLine) (hflow : s.inFlow = true)
    (hcolumn : 0 < s.cursor.column) {p : KeyPlace} (hp : s.key = some p)
    (hpline : p.line = s.cursor.line) (hindex : s.cursor.index ≤ p.index + 1024)
    (hnumber : p.number + 1 = s.count) {t : Token} {ts : List Token} (hts : s.reversed = t :: ts)
    {rest : List Char} (hs : s.cursor.rest = ':' :: rest) :
    Leads s { s with
      cursor := s.cursor.advance 1, key := none, keyAllowed := false,
      reversed := .value :: t :: .key :: ts, count := s.count + 2 } := by
  have hafter : s.count - p.number = 1 := by omega
  have hvalue : s.value = .ok { s with
      cursor := s.cursor.advance 1, key := none, keyAllowed := false,
      reversed := .value :: t :: .key :: ts, count := s.count + 2 } := by
    have hinsert : s.insertAt p.number .key =
        { s with reversed := t :: .key :: ts, count := s.count + 1 } := by
      rw [insertAt, hafter, hts]
      rfl
    have hopen : (s.insertAt p.number .key).openBlock p.column .blockMapping (some p.number) =
        s.insertAt p.number .key := by
      rw [openBlock, insertAt, inFlow, show (!s.outerKeys.isEmpty) = true from hflow]
      rfl
    rw [value, hp]
    dsimp only
    rw [hopen, hinsert]
    rfl
  have hmark := Cursor.atDocumentMark_of_column hcolumn
  have hnext : s.next ':' rest = s.value := by
    simp [next, hmark, hflow]
  exact leads_of_next hs (by decide) (forgetOldKey_near hp hpline hindex) rfl hline
    (hnext.trans hvalue) rfl

/-- The state behind the colon of a key. -/
def colon (s : Layout) (k : Key) : Layout :=
  { s.ahead (k.chars.length + 1) [.key, .scalar false k.text, .value] with
    key := none, keyAllowed := false }

theorem ready_colon {s : Layout} (h : s.Ready) (k : Key) : (s.colon k).Ready :=
  ⟨⟨h.inLine.indent, h.inLine.outer⟩, h.inFlow, Nat.add_pos_left h.column _, rfl⟩

/-- A key with its colon. -/
theorem leads_key {s : Layout} (h : s.Ready) (hallowed : s.keyAllowed = true) {k : Key}
    {rest : List Char} (hs : s.cursor.rest = k.chars ++ ':' :: rest) : Leads s (s.colon k) := by
  have hkey : (s.past k.chars.length [.scalar false k.text]).key =
      some ⟨false, s.count, s.cursor.index, s.cursor.line, s.cursor.column⟩ := by
    show s.place = _
    rw [place, hallowed, if_pos rfl]
  have hnear : s.cursor.index + k.chars.length ≤ s.cursor.index + 1024 := by
    have hshort := k.short
    have hgreatest : Key.greatest = 1022 := rfl
    rw [Key.chars, Spelling.length_chars]
    omega
  refine (leads_string h hs).trans ?_
  have hcolon := leads_colon (s := s.past k.chars.length [.scalar false k.text])
    ⟨h.inLine.indent, h.inLine.outer⟩ h.inFlow (Nat.add_pos_left h.column _) hkey rfl hnear rfl rfl
    (Cursor.rest_advance hs)
  simpa [colon, past, ahead, Cursor.advance_advance, Nat.add_assoc, Key.chars, Key.text]
    using hcolon

/-! ## Lists and objects -/

/-- What may stand behind a value. -/
def endsValue (c : Char) : Prop := c = ',' ∨ c = ']' ∨ c = '}'

/-- A value is read as its tokens, wherever it may stand in brackets. -/
def Scans (v : Compact) : Prop :=
  ∀ (s : Layout) (d : Char) (rest : List Char), s.Ready → endsValue d →
    s.cursor.rest = v.chars ++ d :: rest → Leads s (s.past v.chars.length v.tokens)

/-- In a collection, in front of its first item or behind another one. -/
structure Between (first : Bool) (s : Layout) : Prop where
  inLine : s.InLine
  inFlow : s.inFlow = true
  column : 0 < s.cursor.column
  loose : s.Loose
  start : first = true → s.key = none ∧ s.keyAllowed = true

/-- The state in which the next item begins. -/
def turn (s : Layout) (first : Bool) : Layout :=
  { s.ahead (Compact.comma first).length (Compact.commaToken first) with
    key := none, keyAllowed := true }

theorem ready_turn {first : Bool} {s : Layout} (h : s.Between first) : (s.turn first).Ready :=
  ⟨⟨h.inLine.indent, h.inLine.outer⟩, h.inFlow, Nat.add_pos_left h.column _, rfl⟩

/-- The next item begins behind a comma, unless it is the first. -/
theorem leads_turn {first : Bool} {s : Layout} (h : s.Between first) {rest : List Char}
    (hs : s.cursor.rest = Compact.comma first ++ rest) : Leads s (s.turn first) := by
  cases first with
  | true =>
    obtain ⟨hkey, hallowed⟩ := h.start rfl
    have hturn : s.turn true = s := by
      obtain ⟨_, _, _, _, _, _, _, _⟩ := s
      subst hkey hallowed
      rfl
    rw [hturn]
    exact Leads.refl s
  | false => exact leads_comma h.inLine h.loose hs

/-- Behind a value there need not be a key. -/
theorem loose_past (s : Layout) (n : Nat) (ts : List Token) : (s.past n ts).Loose := by
  intro p hp
  have hplace : s.place = some p := hp
  rw [place] at hplace
  split at hplace
  · obtain rfl := Option.some.inj hplace
    rfl
  · exact absurd hplace (Option.some_ne_none p).symm

theorem between_past {s : Layout} (h : s.Ready) (n : Nat) (ts : List Token) :
    (s.past n ts).Between false :=
  ⟨⟨h.inLine.indent, h.inLine.outer⟩, h.inFlow, Nat.add_pos_left h.column _, loose_past s n ts,
    fun hfirst => absurd hfirst Bool.false_ne_true⟩

/-- The state behind a collection with the given place. -/
def closed (s : Layout) (p : Option KeyPlace) (outer : List (Option KeyPlace)) (n : Nat)
    (ts : List Token) : Layout :=
  { s.ahead n ts with key := p, outerKeys := outer, keyAllowed := false }

theorem closed_past (s : Layout) (m n : Nat) (ts us : List Token) (p : Option KeyPlace)
    (outer : List (Option KeyPlace)) :
    (s.past m ts).closed p outer n us = s.closed p outer (m + n) (ts ++ us) := by
  simp only [closed, past, ahead, Cursor.advance_advance, List.reverse_append,
    List.append_assoc, List.length_append, Nat.add_assoc]

theorem closed_turn (s : Layout) (first : Bool) (n : Nat) (us : List Token)
    (p : Option KeyPlace) (outer : List (Option KeyPlace)) :
    (s.turn first).closed p outer n us =
      s.closed p outer ((Compact.comma first).length + n) (Compact.commaToken first ++ us) := by
  simp only [closed, turn, ahead, Cursor.advance_advance, List.reverse_append,
    List.append_assoc, List.length_append, Nat.add_assoc]

theorem closed_colon (s : Layout) (k : Key) (n : Nat) (us : List Token) (p : Option KeyPlace)
    (outer : List (Option KeyPlace)) :
    (s.colon k).closed p outer n us =
      s.closed p outer (k.chars.length + 1 + n)
        ([.key, .scalar false k.text, .value] ++ us) := by
  simp only [closed, colon, ahead, Cursor.advance_advance, List.reverse_append,
    List.append_assoc, List.length_append, Nat.add_assoc]

theorem itemChars_eq_cons (vs : List Compact) (rest : List Char) : ∃ d cs,
    Compact.itemChars false vs ++ rest = d :: cs ∧ endsValue d := by
  cases vs with
  | nil => exact ⟨']', _, rfl, .inr (.inl rfl)⟩
  | cons v vs => exact ⟨',', _, rfl, .inl rfl⟩

/-- A list is read to its end if each of its items is. -/
theorem leads_items {vs : List Compact} (h : ∀ v ∈ vs, Scans v) {first : Bool} {s : Layout}
    (hs : s.Between first) {p : Option KeyPlace} {outer : List (Option KeyPlace)}
    (houter : s.outerKeys = p :: outer) {rest : List Char}
    (hrest : s.cursor.rest = Compact.itemChars first vs ++ rest) :
    Leads s (s.closed p outer (Compact.itemChars first vs).length
      (Compact.itemTokens first vs)) := by
  induction vs generalizing first s with
  | nil => exact leads_close hs.inLine hs.loose houter hrest (.inl ⟨rfl, rfl⟩)
  | cons v vs ih =>
    obtain ⟨d, cs, hd, hends⟩ := itemChars_eq_cons vs rest
    rw [Compact.itemChars, List.append_assoc, List.append_assoc] at hrest
    have hturn := Cursor.rest_advance hrest
    have hvalue := h v List.mem_cons_self (s.turn first) d cs (ready_turn hs) hends
      (hturn.trans (congrArg _ hd))
    have hitems := ih (fun w hw => h w (List.mem_cons_of_mem _ hw))
      (between_past (ready_turn hs) v.chars.length v.tokens) houter (Cursor.rest_advance hturn)
    have hall := ((leads_turn hs hrest).trans hvalue).trans hitems
    rw [Compact.itemChars, Compact.itemTokens, List.length_append, List.length_append]
    rwa [closed_past, closed_turn] at hall

theorem entryChars_eq_cons (es : List (Key × Compact)) (rest : List Char) : ∃ d cs,
    Compact.entryChars false es ++ rest = d :: cs ∧ endsValue d := by
  cases es with
  | nil => exact ⟨'}', _, rfl, .inr (.inr rfl)⟩
  | cons e es => exact ⟨',', _, rfl, .inl rfl⟩

/-- An object is read to its end if each of its values is. -/
theorem leads_entries {es : List (Key × Compact)} (h : ∀ e ∈ es, Scans e.2) {first : Bool}
    {s : Layout} (hs : s.Between first) {p : Option KeyPlace} {outer : List (Option KeyPlace)}
    (houter : s.outerKeys = p :: outer) {rest : List Char}
    (hrest : s.cursor.rest = Compact.entryChars first es ++ rest) :
    Leads s (s.closed p outer (Compact.entryChars first es).length
      (Compact.entryTokens first es)) := by
  induction es generalizing first s with
  | nil => exact leads_close hs.inLine hs.loose houter hrest (.inr ⟨rfl, rfl⟩)
  | cons e es ih =>
    obtain ⟨k, v⟩ := e
    obtain ⟨d, cs, hd, hends⟩ := entryChars_eq_cons es rest
    rw [Compact.entryChars, List.append_assoc, List.append_assoc, List.cons_append,
      List.append_assoc] at hrest
    have hturn := Cursor.rest_advance hrest
    have hkey := leads_key (ready_turn hs) rfl hturn
    have hcolon : ((s.turn first).colon k).cursor.rest =
        v.chars ++ (Compact.entryChars false es ++ rest) := by
      have hkeyed : (s.turn first).cursor.rest =
          (k.chars ++ [':']) ++ (v.chars ++ (Compact.entryChars false es ++ rest)) := by
        rw [List.append_assoc]
        exact hturn
      have hbehind := Cursor.rest_advance hkeyed
      rwa [List.length_append] at hbehind
    have hvalue := h (k, v) List.mem_cons_self ((s.turn first).colon k) d cs
      (ready_colon (ready_turn hs) k) hends (hcolon.trans (congrArg _ hd))
    have hentries := ih (fun f hf => h f (List.mem_cons_of_mem _ hf))
      (between_past (ready_colon (ready_turn hs) k) v.chars.length v.tokens) houter
      (Cursor.rest_advance hcolon)
    have hall := (((leads_turn hs hrest).trans hkey).trans hvalue).trans hentries
    rw [closed_past, closed_colon, closed_turn, Nat.add_assoc k.chars.length,
      Nat.add_comm 1] at hall
    rw [Compact.entryChars, Compact.entryTokens, List.length_append, List.length_append,
      List.length_cons, List.length_append]
    exact hall

/-! ## Values -/

/-- A property of all ten digits. -/
theorem of_isDigit {p : Char → Bool} (h : ∀ n < 10, p (Nat.digitChar n) = true) {c : Char}
    (hc : c.isDigit = true) : p c = true := by
  obtain ⟨n, hn, rfl⟩ := Text.exists_digitChar hc
  exact h n hn

/-- The characters of a whole number. -/
theorem mem_numberChars {n : Int} {c : Char} (h : c ∈ Json.numberChars (.whole n)) :
    c = '-' ∨ c.isDigit = true := by
  cases n with
  | ofNat n =>
    have hmem : c ∈ Json.numberChars (.whole (n : Int)) := h
    rw [Json.Lexeme.numberChars_ofNat] at hmem
    exact .inr (Plain.isDigit_of_mem_toDigits hmem)
  | negSucc n =>
    rw [Json.Lexeme.numberChars_neg] at h
    rcases List.mem_cons.1 h with rfl | h
    · exact .inl rfl
    · exact .inr (Plain.isDigit_of_mem_toDigits h)

/-- A property of the characters of all whole numbers. -/
theorem of_mem_numberChars {p : Char → Bool} (hminus : p '-' = true)
    (h : ∀ n < 10, p (Nat.digitChar n) = true) {n : Int} {c : Char}
    (hc : c ∈ Json.numberChars (.whole n)) : p c = true := by
  rcases mem_numberChars hc with rfl | hc
  · exact hminus
  · exact of_isDigit h hc

/-- A whole number begins with a digit, or with a dash in front of one. -/
theorem numberChars_begin (n : Int) (rest : List Char) :
    ∃ c cs, Json.numberChars (.whole n) = c :: cs ∧
      (isIndicator c = false ∨ c = '-' ∧ Cursor.endsWord (cs ++ rest) = false) := by
  have hdigits (m : Nat) : ∃ c cs, Nat.toDigits 10 m = c :: cs ∧ c.isDigit = true := by
    cases hds : Nat.toDigits 10 m with
    | nil => exact absurd hds Nat.toDigits_ne_nil
    | cons c cs =>
      exact ⟨c, cs, rfl, Plain.isDigit_of_mem_toDigits (hds ▸ List.mem_cons_self)⟩
  cases n with
  | ofNat n =>
    obtain ⟨c, cs, hcs, hc⟩ := hdigits n
    have hindicator : (!isIndicator c) = true := of_isDigit (p := fun c => !isIndicator c)
      (by decide) hc
    refine ⟨c, cs, ?_, .inl (by simpa using hindicator)⟩
    show Json.numberChars (.whole (n : Int)) = _
    rw [Json.Lexeme.numberChars_ofNat, hcs]
  | negSucc n =>
    obtain ⟨c, cs, hcs, hc⟩ := hdigits (n + 1)
    have hgap : (!isGapOrBreak c) = true := of_isDigit (p := fun c => !isGapOrBreak c)
      (by decide) hc
    refine ⟨'-', _, Json.Lexeme.numberChars_neg n, .inr ⟨rfl, ?_⟩⟩
    rw [hcs]
    show isGapOrBreak c = false
    simpa using hgap

/-- A plain scalar is read as its token. -/
theorem scans_word {v : Compact} {c : Char} {cs : List Char} (hv : v.chars = c :: cs)
    (htokens : v.tokens = [.scalar true (String.ofList (c :: cs))])
    (hword : ∀ e ∈ c :: cs, Lexeme.isWord e = true) (hstarts : startsToken c = true)
    (hc : ∀ rest, isIndicator c = false ∨ c = '-' ∧ Cursor.endsWord (cs ++ rest) = false) :
    Scans v := by
  intro s d rest hs hd hrest
  have hgap : isGapOrBreak d = false := by
    rcases hd with rfl | rfl | rfl <;> rfl
  have hflow : Lexeme.isFlowIndicator d = true := by
    rcases hd with rfl | rfl | rfl <;> rfl
  rw [hv] at hrest ⊢
  rw [htokens]
  exact leads_word hs hrest hword hstarts (hc _) hgap hflow

theorem scans_whole (n : Int) : Scans (.whole n) := by
  have hword : ∀ e ∈ Json.numberChars (.whole n), Lexeme.isWord e = true := fun e he =>
    of_mem_numberChars (by decide) (by decide) he
  have hstarts : ∀ e ∈ Json.numberChars (.whole n), startsToken e = true := fun e he =>
    of_mem_numberChars (by decide) (by decide) he
  have hbegin := numberChars_begin n
  cases hcs : Json.numberChars (.whole n) with
  | nil =>
    obtain ⟨c, cs, h, _⟩ := hbegin []
    exact absurd (hcs.symm.trans h) (List.cons_ne_nil _ _).symm
  | cons c cs =>
    rw [hcs] at hword hstarts
    refine scans_word hcs ?_ hword (hstarts c List.mem_cons_self) fun rest => ?_
    · rw [← hcs]
      show [Token.scalar true (toString n)] = [.scalar true (String.ofList (toString n).toList)]
      rw [String.ofList_toList]
    · obtain ⟨e, es, h, he⟩ := hbegin rest
      obtain ⟨rfl, rfl⟩ := List.cons.inj (hcs.symm.trans h)
      exact he

/-- A collection is behind its closing bracket what it was in front of the opening one. -/
theorem closed_opened (s : Layout) (t : Token) (n : Nat) (ts : List Token) :
    (s.opened t).closed s.place s.outerKeys n ts = s.past (n + 1) (t :: ts) := by
  show { (s.ahead 1 [t]).ahead n ts with
    key := s.place, outerKeys := s.outerKeys, keyAllowed := false } = _
  rw [ahead_ahead, Nat.add_comm]
  rfl

theorem between_opened {s : Layout} (h : s.InLine) (t : Token) : (s.opened t).Between true :=
  ⟨⟨h.indent, h.outer⟩, rfl, Nat.succ_pos _, loose_of_none rfl, fun _ => ⟨rfl, rfl⟩⟩

/-- A list is read as its tokens, also outside of brackets. -/
theorem leads_list {vs : List Compact} (h : ∀ v ∈ vs, Scans v) {s : Layout} (hline : s.InLine)
    (hkey : s.key = none) {rest : List Char}
    (hs : s.cursor.rest = (Compact.list vs).chars ++ rest) :
    Leads s (s.past (Compact.list vs).chars.length (Compact.list vs).tokens) := by
  have hopen := leads_open hline hkey hs (.inl ⟨rfl, rfl⟩)
  have hbehind : s.cursor.rest = ['['] ++ (Compact.itemChars true vs ++ rest) := hs
  have hitems :=
    leads_items h (between_opened hline .listStart) rfl (Cursor.rest_advance hbehind)
  rw [closed_opened] at hitems
  exact hopen.trans hitems

/-- An object is read as its tokens, also outside of brackets. -/
theorem leads_map {es : List (Key × Compact)} (h : ∀ e ∈ es, Scans e.2) {s : Layout}
    (hline : s.InLine) (hkey : s.key = none) {rest : List Char}
    (hs : s.cursor.rest = (Compact.map es).chars ++ rest) :
    Leads s (s.past (Compact.map es).chars.length (Compact.map es).tokens) := by
  have hopen := leads_open hline hkey hs (.inr ⟨rfl, rfl⟩)
  have hbehind : s.cursor.rest = ['{'] ++ (Compact.entryChars true es ++ rest) := hs
  have hentries :=
    leads_entries h (between_opened hline .mapStart) rfl (Cursor.rest_advance hbehind)
  rw [closed_opened] at hentries
  exact hopen.trans hentries

/-- A value is read as its tokens. -/
theorem scans (v : Compact) : Scans v := by
  induction v with
  | null => exact scans_word rfl rfl (List.all_eq_true.1 rfl) rfl fun _ => .inl rfl
  | bool b =>
    cases b with
    | true => exact scans_word rfl rfl (List.all_eq_true.1 rfl) rfl fun _ => .inl rfl
    | false => exact scans_word rfl rfl (List.all_eq_true.1 rfl) rfl fun _ => .inl rfl
  | whole n => exact scans_whole n
  | string t => exact fun s d rest hs _ hrest => leads_string hs hrest
  | list vs ih => exact fun s d rest hs _ hrest => leads_list ih hs.inLine hs.key hrest
  | map es ih => exact fun s d rest hs _ hrest => leads_map ih hs.inLine hs.key hrest

/-! ## Whole texts -/

/-- The state in front of a text. -/
def start (cs : List Char) : Layout := { cursor := ⟨cs, 0, 0, 0⟩ }

/-- At the end of the text all tokens have been read. -/
theorem finish_end {s : Layout} (hline : s.InLine) (hloose : s.Loose) (hs : s.cursor.rest = [])
    (rounds : Nat) : finish (rounds + 1) s = .ok s.reversed.reverse := by
  have hskip : skipToToken (rounds + 1) s = s := by
    have hnothing (p : Char → Bool) : s.cursor.isAt p = false := by rw [Cursor.isAt, hs]
    rw [skipToToken, hnothing, Bool.and_false, if_neg Bool.false_ne_true, skip_nil hs,
      Cursor.skipComment, hnothing, if_neg Bool.false_ne_true, hnothing,
      if_neg Bool.false_ne_true]
  obtain ⟨q, hforget, hq⟩ := forgetOldKey_loose hloose
  rw [finish, hskip, hforget]
  dsimp only
  rw [hs]
  dsimp only
  rw [closeBlocks_eq (s := { s with key := q }) ⟨hline.indent, hline.outer⟩, dropKey_loose hq]
  rfl

end Layout

/-! ### Characters -/

/-- Printable characters may occur in a text. -/
theorem isAllowed_printable {c : Char} (h : 0x20 ≤ c.toNat ∧ c.toNat ≤ 0x7E) :
    isAllowed c = true := by
  rw [isAllowed]
  simp [h.1, h.2]

theorem isAllowed_glyph {g : Glyph} {c : Char} (h : c ∈ g.chars) : isAllowed c = true := by
  obtain ⟨d, cs, hp, hw⟩ := g
  have hdigit : ∀ n < 16, isAllowed (Json.hexChar n) = true := by decide
  have hcapital : ∀ n < 16, isAllowed (Json.hexChar n).toUpper = true := by decide
  cases hw with
  | plain => exact List.mem_singleton.1 h ▸ isAllowed_printable hp
  | escaped =>
    rcases List.mem_cons.1 h with rfl | h
    · rfl
    · exact List.mem_singleton.1 h ▸ isAllowed_printable hp
  | @code last hlast =>
    dsimp only at hp h
    have hlow : isAllowed last = true := by
      rcases hlast with rfl | rfl
      · exact hdigit _ (by omega)
      · exact hcapital _ (by omega)
    have hhigh : isAllowed (Json.hexChar (d.toNat / 16)) = true := hdigit _ (by omega)
    simp only [List.mem_cons, List.not_mem_nil, or_false] at h
    rcases h with rfl | rfl | rfl | rfl | rfl | rfl
    · rfl
    · rfl
    · rfl
    · rfl
    · exact hhigh
    · exact hlow

theorem isAllowed_spelling {s : Spelling} {c : Char} (h : c ∈ s.chars) : isAllowed c = true := by
  rw [Spelling.chars, Spelling.inner, List.mem_cons, List.mem_append, List.mem_flatMap,
    List.mem_singleton] at h
  rcases h with rfl | ⟨g, _, hg⟩ | rfl
  · rfl
  · exact isAllowed_glyph hg
  · rfl

theorem isAllowed_comma {first : Bool} {c : Char} (h : c ∈ Compact.comma first) :
    isAllowed c = true := by
  cases first with
  | true => exact absurd h List.not_mem_nil
  | false => exact List.mem_singleton.1 h ▸ rfl

/-- All characters of a value may occur in a text. -/
theorem isAllowed_chars (v : Compact) : ∀ c ∈ v.chars, isAllowed c = true := by
  induction v with
  | null => exact List.all_eq_true.1 rfl
  | bool b =>
    cases b with
    | true => exact List.all_eq_true.1 rfl
    | false => exact List.all_eq_true.1 rfl
  | whole n => exact fun c hc => Layout.of_mem_numberChars (by decide) (by decide) hc
  | string s => exact fun c hc => isAllowed_spelling hc
  | list vs ih =>
    have hitems : ∀ (first : Bool) (c : Char), c ∈ Compact.itemChars first vs →
        isAllowed c = true := by
      induction vs with
      | nil => exact fun first c hc => List.mem_singleton.1 hc ▸ rfl
      | cons v vs hvs =>
        intro first c hc
        rw [Compact.itemChars, List.mem_append, List.mem_append] at hc
        rcases hc with hc | hc | hc
        · exact isAllowed_comma hc
        · exact ih v List.mem_cons_self c hc
        · exact hvs (fun w hw => ih w (List.mem_cons_of_mem _ hw)) false c hc
    exact List.forall_mem_cons.2 ⟨rfl, hitems true⟩
  | map es ih =>
    have hentries : ∀ (first : Bool) (c : Char), c ∈ Compact.entryChars first es →
        isAllowed c = true := by
      induction es with
      | nil => exact fun first c hc => List.mem_singleton.1 hc ▸ rfl
      | cons e es hes =>
        obtain ⟨k, v⟩ := e
        intro first c hc
        rw [Compact.entryChars, List.mem_append, List.mem_append, List.mem_cons,
          List.mem_append] at hc
        rcases hc with hc | hc | rfl | hc | hc
        · exact isAllowed_comma hc
        · exact isAllowed_spelling hc
        · rfl
        · exact ih (k, v) List.mem_cons_self c hc
        · exact hes (fun f hf => ih f (List.mem_cons_of_mem _ hf)) false c hc
    exact List.forall_mem_cons.2 ⟨rfl, hentries true⟩

/-- The text of an object has its tokens. -/
theorem tokens_chars (es : List (Key × Compact)) :
    tokens (String.ofList (Compact.map es).chars) = .ok (Compact.map es).tokens := by
  have hchars : withoutMark (String.ofList (Compact.map es).chars).toList =
      (Compact.map es).chars := by
    rw [String.toList_ofList, Compact.chars, withoutMark, if_neg (by decide)]
  have hall : (Compact.map es).chars.all isAllowed = true :=
    List.all_eq_true.2 (isAllowed_chars _)
  have hrest : (Layout.start (Compact.map es).chars).cursor.rest = (Compact.map es).chars ++ [] :=
    (List.append_nil _).symm
  obtain ⟨n, hn, hleads⟩ := Layout.leads_map (fun e (_ : e ∈ es) => Layout.scans e.2)
    (s := Layout.start (Compact.map es).chars) ⟨rfl, rfl⟩ rfl hrest
  have hend : ((Layout.start (Compact.map es).chars).past (Compact.map es).chars.length
      (Compact.map es).tokens).cursor.rest = [] := Cursor.rest_advance hrest
  have hlen : (Layout.start (Compact.map es).chars).cursor.rest.length =
      (Compact.map es).chars.length := rfl
  obtain ⟨m, hm⟩ : ∃ m, (Compact.map es).chars.length + 1 = m + 1 + n :=
    ⟨(Compact.map es).chars.length - n, by omega⟩
  unfold tokens
  dsimp only
  rw [hchars, if_pos hall]
  show Layout.finish _ (Layout.start (Compact.map es).chars) = _
  rw [hm, hleads, Layout.finish_end ⟨rfl, rfl⟩ (Layout.loose_past _ _ _) hend]
  show Except.ok ((Compact.map es).tokens.reverse ++ []).reverse = _
  rw [List.append_nil, List.reverse_reverse]

/-- The document of the text of an object is its node. -/
theorem ofText_chars (es : List (Key × Compact)) : ∃ size,
    Document.ofText (String.ofList (Compact.map es).chars) =
      .ok ⟨some (Compact.map es).node, [], size⟩ := by
  obtain ⟨size, hsize⟩ := ofTokens_tokens (.map es)
  refine ⟨size, ?_⟩
  rw [Document.ofText, tokens_chars]
  exact hsize

/-- A reader that finds a value in the node of an object has it as its result on the text. -/
theorem run_chars {α : Type} {r : Reader (Option α)} {es : List (Key × Compact)} {a : Option α}
    (h : Takes r (.map es) a) : r.run (String.ofList (Compact.map es).chars) = .ok a := by
  obtain ⟨size, hsize⟩ := ofText_chars es
  rw [Reader.run, hsize]
  dsimp only
  rw [h]
  rfl

end Yaml
end GlyphLine
