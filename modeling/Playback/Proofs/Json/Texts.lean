import Playback.Proofs.Json.Tokens

/-!
# JSON values read back

`Spells` is the part of the grammar of JSON that is written: every value with blanks at most before it and
before a closing bracket. Both layouts keep to it (`compactChars_spells`, `prettyChars_spells`), and `parse?`
reads what keeps to it as the value that was written (`Spells.parsed`). So a value is read back from either
layout if its numbers can be spelled and its strings have content (`parse?_compact`, `parse?_pretty`).

Nested values need the depth that `value?` is given. Each level takes two characters, for its brackets or for
a comma, and so twice the length of the text is always enough.
-/

namespace Playback.Json

/-! ## Blanks -/

/-- Nothing but blanks. -/
def Blank (cs : List Char) : Prop :=
  ∀ c ∈ cs, isBlank c = true

theorem blank_nil : Blank [] := nofun

theorem Blank.append {b b' : List Char} (hb : Blank b) (hb' : Blank b') : Blank (b ++ b') := by
  intro c hc
  rcases List.mem_append.mp hc with hleft | hright
  · exact hb c hleft
  · exact hb' c hright

theorem skipBlank_append {b : List Char} (hb : Blank b) (cs : List Char) : skipBlank (b ++ cs) = skipBlank cs := by
  induction b with
  | nil => rfl
  | cons c b ih =>
    rw [List.cons_append, skipBlank, List.dropWhile_cons_of_pos (hb c (List.mem_cons_self ..))]
    exact ih fun c' hc' => hb c' (List.mem_cons_of_mem _ hc')

theorem skipBlank_cons {c : Char} (hc : isBlank c = false) (cs : List Char) : skipBlank (c :: cs) = c :: cs :=
  List.dropWhile_cons_of_neg (by simp [hc])

theorem skipBlank_skipBlank (cs : List Char) : skipBlank (skipBlank cs) = skipBlank cs := by
  induction cs with
  | nil => rfl
  | cons c cs ih =>
    cases hc : isBlank c with
    | true =>
      have hstep : skipBlank (c :: cs) = skipBlank cs := List.dropWhile_cons_of_pos hc
      rw [hstep]
      exact ih
    | false => rw [skipBlank_cons hc, skipBlank_cons hc]

theorem value?_skipBlank (depth : Nat) (cs : List Char) : value? depth (skipBlank cs) = value? depth cs := by
  cases depth with
  | zero => rfl
  | succ depth => simp only [value?, skipBlank_skipBlank]

theorem items?_skipBlank (depth : Nat) (cs : List Char) : items? depth (skipBlank cs) = items? depth cs := by
  cases depth with
  | zero => rfl
  | succ depth => simp only [items?, value?_skipBlank]

theorem entries?_skipBlank (depth : Nat) (cs : List Char) : entries? depth (skipBlank cs) = entries? depth cs := by
  cases depth with
  | zero => rfl
  | succ depth => simp only [entries?, skipBlank_skipBlank]

/-- Blanks before something that ends a number end it too. -/
theorem Stops.blank {b rest : List Char} (hb : Blank b) (h : Stops rest) : Stops (b ++ rest) := by
  cases b with
  | nil => exact h
  | cons c b =>
    refine stops_cons ?_
    have hc := hb c (List.mem_cons_self ..)
    simp only [isBlank, Bool.or_eq_true, decide_eq_true_eq] at hc
    rcases hc with ((rfl | rfl) | rfl) | rfl <;> decide

/-! ## What is written -/

/-- What a part of a text stands for: a value, or the items or entries between brackets. -/
inductive Piece where
  | value (v : Json)
  | items (l : List Json)
  | entries (l : List (Option String × Json))

/-- The texts of a piece. -/
inductive Spells : Piece → List Char → Prop where
  | null : Spells (.value .null) ['n', 'u', 'l', 'l']
  | yes : Spells (.value (.bool true)) ['t', 'r', 'u', 'e']
  | no : Spells (.value (.bool false)) ['f', 'a', 'l', 's', 'e']
  | number (n : Number) (legal : n.Legal) : Spells (.value (.number n)) n.write
  | string (s : String) : Spells (.value (.string (some s))) (quote s)
  | noItems : Spells (.value (.array [])) ['[', ']']
  | array {l : List Json} {cs : List Char} (h : Spells (.items l) cs) (b : List Char) (hb : Blank b) :
      Spells (.value (.array l)) ('[' :: (cs ++ (b ++ [']'])))
  | noEntries : Spells (.value (.object [])) ['\x7b', '\x7d']
  | object {l : List (Option String × Json)} {cs : List Char} (h : Spells (.entries l) cs) (b : List Char)
      (hb : Blank b) : Spells (.value (.object l)) ('\x7b' :: (cs ++ (b ++ ['\x7d'])))
  | item {v : Json} {cs : List Char} (b : List Char) (hb : Blank b) (h : Spells (.value v) cs) :
      Spells (.items [v]) (b ++ cs)
  | items {v : Json} {l : List Json} {cs ds : List Char} (b : List Char) (hb : Blank b)
      (h : Spells (.value v) cs) (hl : Spells (.items l) ds) : Spells (.items (v :: l)) (b ++ (cs ++ ',' :: ds))
  | entry {v : Json} {cs : List Char} (b : List Char) (hb : Blank b) (name : String) (b' : List Char)
      (hb' : Blank b') (h : Spells (.value v) cs) :
      Spells (.entries [(some name, v)]) (b ++ (quote name ++ ':' :: (b' ++ cs)))
  | entries {v : Json} {l : List (Option String × Json)} {cs ds : List Char} (b : List Char) (hb : Blank b)
      (name : String) (b' : List Char) (hb' : Blank b') (h : Spells (.value v) cs)
      (hl : Spells (.entries l) ds) :
      Spells (.entries ((some name, v) :: l)) (b ++ (quote name ++ ':' :: (b' ++ (cs ++ ',' :: ds))))

/-- Neither a blank nor a closing bracket. -/
def opens (c : Char) : Bool :=
  !isBlank c && c ≠ ']' && c ≠ '\x7d'

/-- The characters that begin a number. -/
def beginsNumber (c : Char) : Bool :=
  isDigit c || c = '-'

theorem beginsNumber_ne {c c' : Char} (h : beginsNumber c = true) (hother : beginsNumber c' = false) : c ≠ c' := by
  rintro rfl
  rw [hother] at h
  cases h

theorem opens_of_beginsNumber {c : Char} (h : beginsNumber c = true) : opens c = true := by
  have hspace : c ≠ ' ' := beginsNumber_ne h rfl
  have hline : c ≠ '\n' := beginsNumber_ne h rfl
  have htab : c ≠ '\t' := beginsNumber_ne h rfl
  have hreturn : c ≠ '\r' := beginsNumber_ne h rfl
  have hbracket : c ≠ ']' := beginsNumber_ne h rfl
  have hbrace : c ≠ '\x7d' := beginsNumber_ne h rfl
  simp [opens, isBlank, hspace, hline, htab, hreturn, hbracket, hbrace]

theorem Number.write_begins {n : Number} (legal : n.Legal) :
    ∃ c cs, n.write = c :: cs ∧ beginsNumber c = true := by
  obtain ⟨d, ds, hds⟩ := List.exists_cons_of_ne_nil legal.nonempty
  have hd : d < 10 := legal.whole d (by rw [hds]; exact List.mem_cons_self ..)
  rw [Number.write_eq, hds]
  cases n.negative with
  | true => exact ⟨'-', _, rfl, rfl⟩
  | false => exact ⟨Nat.digitChar d, _, rfl, by rw [beginsNumber, isDigit_digitChar hd]; rfl⟩

/-- The text of a value begins with neither a blank nor a closing bracket; between brackets blanks may come
before such a character. -/
theorem Spells.opens {p : Piece} {cs : List Char} (h : Spells p cs) :
    ∃ b c ds, cs = b ++ c :: ds ∧ Blank b ∧ opens c = true := by
  induction h with
  | null | yes | no | string | noItems | array | noEntries | object => exact ⟨[], _, _, rfl, blank_nil, rfl⟩
  | number n legal =>
    obtain ⟨c, cs, hwrite, hc⟩ := n.write_begins legal
    exact ⟨[], c, cs, hwrite, blank_nil, opens_of_beginsNumber hc⟩
  | item b hb h ih =>
    obtain ⟨b', c, ds, rfl, hb', hc⟩ := ih
    exact ⟨b ++ b', c, ds, (List.append_assoc ..).symm, hb.append hb', hc⟩
  | @items _ _ _ es b hb h hl ih =>
    obtain ⟨b', c, ds, rfl, hb', hc⟩ := ih
    exact ⟨b ++ b', c, ds ++ ',' :: es, by simp, hb.append hb', hc⟩
  | entry b hb name b' hb' h | entries b hb name b' hb' h hl => exact ⟨b, '"', _, rfl, hb, rfl⟩

/-! ## Reading -/

/-- What the parser makes of the texts of a piece, at every sufficient depth and whatever follows. -/
def Piece.Parses : Piece → List Char → Prop
  | .value v, cs => ∀ depth rest, 2 * cs.length ≤ depth → Stops rest →
      value? depth (cs ++ rest) = some (v, rest)
  | .items l, cs => ∀ depth b rest, 2 * cs.length < depth → Blank b →
      items? depth (cs ++ (b ++ ']' :: rest)) = some (l, rest)
  | .entries l, cs => ∀ depth b rest, 2 * cs.length < depth → Blank b →
      entries? depth (cs ++ (b ++ '\x7d' :: rest)) = some (l, rest)

theorem opens_notBlank {c : Char} (h : opens c = true) : isBlank c = false := by
  simp only [opens, Bool.and_eq_true, Bool.not_eq_true'] at h
  exact h.1.1

/-- A text that opens is still there after its blanks are skipped. -/
theorem Spells.skipBlank {p : Piece} {cs : List Char} (h : Spells p cs) (rest : List Char) :
    ∃ c ds, Json.skipBlank (cs ++ rest) = c :: ds ∧ Json.opens c = true := by
  obtain ⟨b, c, ds, rfl, hb, hc⟩ := h.opens
  refine ⟨c, ds ++ rest, ?_, hc⟩
  rw [List.append_assoc, skipBlank_append hb, List.cons_append, skipBlank_cons (opens_notBlank hc)]

theorem value?_number {n : Number} (legal : n.Legal) {rest : List Char} (h : Stops rest) (depth : Nat) :
    value? (depth + 1) (n.write ++ rest) = some (.number n, rest) := by
  obtain ⟨c, cs, hwrite, hc⟩ := n.write_begins legal
  have hread := number?_write legal h
  have hblank : isBlank c = false := opens_notBlank (opens_of_beginsNumber hc)
  rw [hwrite, List.cons_append] at hread ⊢
  rw [value?, skipBlank_cons hblank]
  split
  next heq => exact absurd (List.cons.inj heq).1 (beginsNumber_ne hc rfl)
  next heq => exact absurd (List.cons.inj heq).1 (beginsNumber_ne hc rfl)
  next heq => exact absurd (List.cons.inj heq).1 (beginsNumber_ne hc rfl)
  next heq => exact absurd (List.cons.inj heq).1 (beginsNumber_ne hc rfl)
  next heq => exact absurd (List.cons.inj heq).1 (beginsNumber_ne hc rfl)
  next heq => exact absurd (List.cons.inj heq).1 (beginsNumber_ne hc rfl)
  next =>
    rw [hread]
    rfl

theorem skipBlank_quote (s : String) (rest : List Char) :
    skipBlank (quote s ++ rest) = '"' :: (s.toList.flatMap escapeChar ++ '"' :: rest) := by
  simp [quote, skipBlank_cons (c := '"') rfl]

theorem value?_string (s : String) (depth : Nat) (rest : List Char) :
    value? (depth + 1) (quote s ++ rest) = some (.string (some s), rest) := by
  rw [value?, skipBlank_quote]
  simp only [string?_quote]
  rfl

section Brackets

variable {depth : Nat} {cs rest : List Char} {c : Char} {ds : List Char}

theorem value?_array {l : List Json} (hcs : skipBlank cs = c :: ds) (hc : opens c = true)
    (h : items? depth cs = some (l, rest)) : value? (depth + 1) ('[' :: cs) = some (.array l, rest) := by
  have hopen : skipBlank ('[' :: cs) = '[' :: cs := rfl
  rw [← items?_skipBlank, hcs] at h
  rw [value?, hopen]
  simp only [hcs]
  split
  next heq =>
    rw [(List.cons.inj heq).1] at hc
    cases hc
  next =>
    rw [h]
    rfl

theorem value?_object {l : List (Option String × Json)} (hcs : skipBlank cs = c :: ds) (hc : opens c = true)
    (h : entries? depth cs = some (l, rest)) : value? (depth + 1) ('\x7b' :: cs) = some (.object l, rest) := by
  have hopen : skipBlank ('\x7b' :: cs) = '\x7b' :: cs := rfl
  rw [← entries?_skipBlank, hcs] at h
  rw [value?, hopen]
  simp only [hcs]
  split
  next heq =>
    rw [(List.cons.inj heq).1] at hc
    cases hc
  next =>
    rw [h]
    rfl

theorem value?_blank {b : List Char} (hb : Blank b) : value? depth (b ++ cs) = value? depth cs := by
  rw [← value?_skipBlank, skipBlank_append hb, value?_skipBlank]

theorem items?_last {v : Json} {b : List Char} (hb : Blank b)
    (h : value? depth cs = some (v, b ++ ']' :: rest)) : items? (depth + 1) cs = some ([v], rest) := by
  have hclose : skipBlank (']' :: rest) = ']' :: rest := rfl
  rw [items?, h]
  simp only [Option.bind_eq_bind, Option.bind_some, skipBlank_append hb, hclose]
  rfl

theorem items?_cons {v : Json} {l : List Json} (h : value? depth cs = some (v, ',' :: ds))
    (hl : items? depth ds = some (l, rest)) : items? (depth + 1) cs = some (v :: l, rest) := by
  have hcomma : skipBlank (',' :: ds) = ',' :: ds := rfl
  rw [items?, h]
  simp only [Option.bind_eq_bind, Option.bind_some, hcomma, hl]
  rfl

theorem entries?_last {v : Json} {b : List Char} (hb : Blank b) (name : String)
    (h : value? depth cs = some (v, b ++ '\x7d' :: rest)) :
    entries? (depth + 1) (quote name ++ ':' :: cs) = some ([(some name, v)], rest) := by
  have hcolon : skipBlank (':' :: cs) = ':' :: cs := rfl
  have hclose : skipBlank ('\x7d' :: rest) = '\x7d' :: rest := rfl
  rw [entries?, skipBlank_quote]
  simp only [Option.bind_eq_bind, string?_quote, Option.bind_some, hcolon, h, skipBlank_append hb, hclose]
  rfl

theorem entries?_cons {v : Json} {l : List (Option String × Json)} (name : String)
    (h : value? depth cs = some (v, ',' :: ds)) (hl : entries? depth ds = some (l, rest)) :
    entries? (depth + 1) (quote name ++ ':' :: cs) = some ((some name, v) :: l, rest) := by
  have hcolon : skipBlank (':' :: cs) = ':' :: cs := rfl
  have hcomma : skipBlank (',' :: ds) = ',' :: ds := rfl
  rw [entries?, skipBlank_quote]
  simp only [Option.bind_eq_bind, string?_quote, Option.bind_some, hcolon, h, hcomma, hl]
  rfl

theorem entries?_blank {b : List Char} (hb : Blank b) : entries? depth (b ++ cs) = entries? depth cs := by
  rw [← entries?_skipBlank, skipBlank_append hb, entries?_skipBlank]

end Brackets

/-- What is spelled is read. -/
theorem Spells.parses {p : Piece} {cs : List Char} (h : Spells p cs) : p.Parses cs := by
  -- the depth that a piece takes is paid for by its own brackets and commas
  induction h with
  | null | yes | no | noItems | noEntries =>
    intro depth rest hdepth _
    cases depth with
    | zero => simp at hdepth
    | succ depth => rfl
  | number n legal =>
    intro depth rest hdepth hstops
    cases depth with
    | zero =>
      obtain ⟨c, ds, hwrite, -⟩ := n.write_begins legal
      simp [hwrite] at hdepth
    | succ depth => exact value?_number legal hstops depth
  | string s =>
    intro depth rest hdepth _
    cases depth with
    | zero => simp [quote] at hdepth
    | succ depth => exact value?_string s depth rest
  | @array l cs h b hb ih =>
    intro depth rest hdepth _
    cases depth with
    | zero => simp at hdepth
    | succ depth =>
      simp only [List.length_cons, List.length_append] at hdepth
      obtain ⟨c, ds, hopens, hc⟩ := h.skipBlank (b ++ ']' :: rest)
      simp only [List.cons_append, List.append_assoc, List.nil_append]
      exact value?_array hopens hc (ih depth b rest (by omega) hb)
  | @object l cs h b hb ih =>
    intro depth rest hdepth _
    cases depth with
    | zero => simp at hdepth
    | succ depth =>
      simp only [List.length_cons, List.length_append] at hdepth
      obtain ⟨c, ds, hopens, hc⟩ := h.skipBlank (b ++ '\x7d' :: rest)
      simp only [List.cons_append, List.append_assoc, List.nil_append]
      exact value?_object hopens hc (ih depth b rest (by omega) hb)
  | item b hb h ih =>
    intro depth b' rest hdepth hb'
    cases depth with
    | zero => simp at hdepth
    | succ depth =>
      simp only [List.length_append] at hdepth
      have hvalue := ih depth (b' ++ ']' :: rest) (by omega) ((stops_cons rfl).blank hb')
      refine items?_last hb' ?_
      rw [List.append_assoc, value?_blank hb, hvalue]
  | @items v l cs ds b hb h hl ih ihl =>
    intro depth b' rest hdepth hb'
    cases depth with
    | zero => simp at hdepth
    | succ depth =>
      simp only [List.length_append, List.length_cons] at hdepth
      have hvalue := ih depth (',' :: (ds ++ (b' ++ ']' :: rest))) (by omega) (stops_cons rfl)
      have hitems := ihl depth b' rest (by omega) hb'
      refine items?_cons ?_ hitems
      simp only [List.append_assoc, List.cons_append]
      rw [value?_blank hb, hvalue]
  | @entry v cs b hb name b' hb' h ih =>
    intro depth b'' rest hdepth hb''
    cases depth with
    | zero => simp at hdepth
    | succ depth =>
      simp only [List.length_append, List.length_cons] at hdepth
      have hvalue := ih depth (b'' ++ '\x7d' :: rest) (by omega) ((stops_cons rfl).blank hb'')
      simp only [List.append_assoc, List.cons_append]
      rw [entries?_blank hb]
      refine entries?_last hb'' name ?_
      rw [value?_blank hb', hvalue]
  | @entries v l cs ds b hb name b' hb' h hl ih ihl =>
    intro depth b'' rest hdepth hb''
    cases depth with
    | zero => simp at hdepth
    | succ depth =>
      simp only [List.length_append, List.length_cons] at hdepth
      have hvalue := ih depth (',' :: (ds ++ (b'' ++ '\x7d' :: rest))) (by omega) (stops_cons rfl)
      have hentries := ihl depth b'' rest (by omega) hb''
      simp only [List.append_assoc, List.cons_append]
      rw [entries?_blank hb]
      refine entries?_cons name ?_ hentries
      rw [value?_blank hb', hvalue]

/-- A text that spells a value is that value. -/
theorem Spells.parsed {v : Json} {cs : List Char} (h : Spells (.value v) cs) :
    parse? (String.ofList cs) = some v := by
  have hread := h.parses (2 * cs.length + 2) [] (by omega) stops_nil
  rw [List.append_nil] at hread
  rw [parse?, String.toList_ofList]
  dsimp only
  rw [hread]
  rfl

/-! ## Both layouts -/

mutual

/-- A value that JSON can spell: its numbers can be spelled, and its strings have content. -/
def Legal : Json → Prop
  | .null | .bool _ => True
  | .number n => n.Legal
  | .string s => s.isSome = true
  | .array l => LegalItems l
  | .object l => LegalEntries l

def LegalItems : List Json → Prop
  | [] => True
  | v :: l => v.Legal ∧ LegalItems l

def LegalEntries : List (Option String × Json) → Prop
  | [] => True
  | (name, v) :: l => name.isSome = true ∧ v.Legal ∧ LegalEntries l

end

mutual

theorem compactChars_spells : ∀ {v : Json}, v.Legal → Spells (.value v) (compactChars v)
  | .null, _ => .null
  | .bool true, _ => .yes
  | .bool false, _ => .no
  | .number n, h => .number n h
  | .string (some s), _ => .string s
  | .array [], _ => .noItems
  | .array (v :: l), h => .array (compactItems_spells (l := v :: l) h nofun) [] blank_nil
  | .object [], _ => .noEntries
  | .object (e :: l), h => .object (compactEntries_spells (l := e :: l) h nofun) [] blank_nil

theorem compactItems_spells : ∀ {l : List Json}, LegalItems l → l ≠ [] → Spells (.items l) (compactItems l)
  | [_], h, _ => .item [] blank_nil (compactChars_spells h.1)
  | _ :: w :: l, h, _ =>
    .items [] blank_nil (compactChars_spells h.1) (compactItems_spells (l := w :: l) h.2 nofun)

theorem compactEntries_spells : ∀ {l : List (Option String × Json)}, LegalEntries l → l ≠ [] →
    Spells (.entries l) (compactEntries l)
  | [(some name, _)], h, _ => .entry [] blank_nil name [] blank_nil (compactChars_spells h.2.1)
  | (some name, _) :: e :: l, h, _ => by
    have hentries := compactEntries_spells (l := e :: l) h.2.2 nofun
    have hall := Spells.entries [] blank_nil name [] blank_nil (compactChars_spells h.2.1) hentries
    simpa [compactEntries, quoteContent] using hall

end

theorem newline_blank (level : Nat) : Blank (newline level) := by
  intro c hc
  rcases List.mem_cons.mp hc with rfl | hspace
  · rfl
  · rw [(List.mem_replicate.mp hspace).2]
    rfl

mutual

theorem prettyChars_spells : ∀ {v : Json} (level : Nat), v.Legal → Spells (.value v) (prettyChars level v)
  | .null, _, _ => .null
  | .bool true, _, _ => .yes
  | .bool false, _, _ => .no
  | .number n, _, h => .number n h
  | .string (some s), _, _ => .string s
  | .array [], _, _ => .noItems
  | .array (v :: l), level, h => by
    have hitems := prettyItems_spells (l := v :: l) (level + 1) h nofun
    have hall := Spells.array hitems (newline level) (newline_blank level)
    simpa [prettyChars] using hall
  | .object [], _, _ => .noEntries
  | .object (e :: l), level, h => by
    have hentries := prettyEntries_spells (l := e :: l) (level + 1) h nofun
    have hall := Spells.object hentries (newline level) (newline_blank level)
    simpa [prettyChars] using hall

theorem prettyItems_spells : ∀ {l : List Json} (level : Nat), LegalItems l → l ≠ [] →
    Spells (.items l) (prettyItems level l)
  | [_], level, h, _ => .item (newline level) (newline_blank level) (prettyChars_spells level h.1)
  | _ :: w :: l, level, h, _ => by
    have hitems := prettyItems_spells (l := w :: l) level h.2 nofun
    have hall := Spells.items (newline level) (newline_blank level) (prettyChars_spells level h.1) hitems
    simpa [prettyItems] using hall

theorem prettyEntries_spells : ∀ {l : List (Option String × Json)} (level : Nat), LegalEntries l → l ≠ [] →
    Spells (.entries l) (prettyEntries level l)
  | [(some name, _)], level, h, _ => by
    have hall := Spells.entry (newline level) (newline_blank level) name [' '] (by simp [Blank, isBlank])
      (prettyChars_spells level h.2.1)
    simpa [prettyEntries, quoteContent] using hall
  | (some name, _) :: e :: l, level, h, _ => by
    have hentries := prettyEntries_spells (l := e :: l) level h.2.2 nofun
    have hall := Spells.entries (newline level) (newline_blank level) name [' '] (by simp [Blank, isBlank])
      (prettyChars_spells level h.2.1) hentries
    simpa [prettyEntries, quoteContent] using hall

end

/-- A value is read back from one line. -/
theorem parse?_compact {v : Json} (legal : v.Legal) : parse? v.compact = some v :=
  (compactChars_spells legal).parsed

/-- A value is read back from several lines. -/
theorem parse?_pretty {v : Json} (legal : v.Legal) : parse? v.pretty = some v :=
  (prettyChars_spells 0 legal).parsed

end Playback.Json
