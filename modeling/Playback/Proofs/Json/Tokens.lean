import Playback.Json.Parse
import Playback.Json.Print

/-!
# Numbers and strings read back

The two kinds of tokens of a JSON text that have content. A number is read back digit for digit if it is one
that JSON can spell (`Number.Legal`) and what follows does not go on with it (`number?_write`); a string is
read back whatever its characters are, because each character is written as one element that stands for it
(`string?_quote`).
-/

namespace Playback

/-! ## Decimal digits -/

namespace Decimal

theorem ofDigits_append (ds es : List Nat) :
    ofDigits (ds ++ es) = es.foldl (fun n d => 10 * n + d) (ofDigits ds) :=
  List.foldl_append ..

theorem digitsOf_small {n : Nat} (h : n < 10) : digitsOf n = [n] := by
  have hzero : '0'.toNat = 48 := rfl
  simp [digitsOf, Nat.toDigits_of_lt_base h, Nat.toNat_digitChar_of_lt_ten h, hzero]

theorem digitsOf_step {n : Nat} (h : 10 ≤ n) : digitsOf n = digitsOf (n / 10) ++ [n % 10] := by
  have hzero : '0'.toNat = 48 := rfl
  have hlast : n % 10 < 10 := Nat.mod_lt _ (by decide)
  simp [digitsOf, Nat.toDigits_of_base_le (by decide) h, Nat.toNat_digitChar_of_lt_ten hlast, hzero]

/-- The digits of a number denote it. -/
theorem ofDigits_digitsOf (n : Nat) : ofDigits (digitsOf n) = n := by
  induction n using Nat.strongRecOn with
  | ind n ih =>
    by_cases h : n < 10
    · simp [digitsOf_small h, ofDigits]
    · rw [digitsOf_step (Nat.le_of_not_lt h), ofDigits_append, ih (n / 10) (by omega)]
      simp only [List.foldl_cons, List.foldl_nil]
      omega

theorem digitsOf_lt (n : Nat) : ∀ d ∈ digitsOf n, d < 10 := by
  induction n using Nat.strongRecOn with
  | ind n ih =>
    by_cases h : n < 10
    · simpa [digitsOf_small h] using h
    · intro d hd
      rw [digitsOf_step (Nat.le_of_not_lt h)] at hd
      rcases List.mem_append.mp hd with hinit | hlast
      · exact ih (n / 10) (by omega) d hinit
      · rw [List.mem_singleton.mp hlast]
        exact Nat.mod_lt _ (by decide)

theorem digitsOf_ne_nil (n : Nat) : digitsOf n ≠ [] := by
  simp [digitsOf, Nat.toDigits_ne_nil]

/-- The first digit is not zero, unless the number is. -/
theorem digitsOf_head {n : Nat} (h : n ≠ 0) : (digitsOf n).head? ≠ some 0 := by
  induction n using Nat.strongRecOn with
  | ind n ih =>
    by_cases hsmall : n < 10
    · simpa [digitsOf_small hsmall] using h
    · have hfirst := ih (n / 10) (by omega) (by omega)
      rw [digitsOf_step (Nat.le_of_not_lt hsmall)]
      cases hds : digitsOf (n / 10) with
      | nil => exact absurd hds (digitsOf_ne_nil _)
      | cons d ds =>
        rw [hds] at hfirst
        exact hfirst

end Decimal

namespace Json

open Decimal (digitChars digitsOf ofDigits)

/-! ## Digits as characters -/

def isDigit (c : Char) : Bool :=
  '0' ≤ c && c ≤ '9'

/-- Whether a number may go on with this character. -/
def continuesNumber (c : Char) : Bool :=
  isDigit c || c = '.' || c = 'e' || c = 'E'

/-- What follows does not go on with a number. -/
def Stops (rest : List Char) : Prop :=
  ∀ c ∈ rest.head?, continuesNumber c = false

theorem stops_nil : Stops [] := nofun

theorem stops_cons {c : Char} {rest : List Char} (h : continuesNumber c = false) : Stops (c :: rest) := by
  intro c' hc'
  cases hc'
  exact h

theorem isDigit_digitChar {d : Nat} (h : d < 10) : isDigit (Nat.digitChar d) = true := by
  revert d
  decide

theorem digitChar_value {d : Nat} (h : d < 10) : (Nat.digitChar d).toNat - '0'.toNat = d := by
  revert d
  decide

theorem spanDigits_stop {rest : List Char} (h : ∀ c ∈ rest.head?, isDigit c = false) :
    spanDigits rest = ([], rest) := by
  cases rest with
  | nil => rfl
  | cons c rest =>
    have hc : ¬ ('0' ≤ c ∧ c ≤ '9') := by simpa [isDigit] using h c rfl
    simp [spanDigits, hc]

/-- All digits are taken, and nothing that follows them. -/
theorem spanDigits_digitChars {ds : List Nat} (hds : ∀ d ∈ ds, d < 10) {rest : List Char}
    (h : ∀ c ∈ rest.head?, isDigit c = false) : spanDigits (digitChars ds ++ rest) = (ds, rest) := by
  induction ds with
  | nil => exact spanDigits_stop h
  | cons d ds ih =>
    have hd : d < 10 := hds d (List.mem_cons_self ..)
    have hc : '0' ≤ Nat.digitChar d ∧ Nat.digitChar d ≤ '9' := by simpa [isDigit] using isDigit_digitChar hd
    have hrest := ih fun d' hd' => hds d' (List.mem_cons_of_mem _ hd')
    have htext : digitChars (d :: ds) ++ rest = Nat.digitChar d :: (digitChars ds ++ rest) := rfl
    rw [htext, spanDigits, if_pos hc, hrest]
    simp only [digitChar_value hd]

/-! ## Numbers -/

/-- A number that JSON can spell: there is a whole digit, and none before it is a superfluous zero. -/
structure Number.Legal (n : Number) : Prop where
  nonempty : n.whole ≠ []
  whole : ∀ d ∈ n.whole, d < 10
  leading : n.whole.head? = some 0 → n.whole.length = 1
  fraction : ∀ d ∈ n.fraction, d < 10

theorem Number.ofInt_legal (i : Int) : (Number.ofInt i).Legal where
  nonempty := Decimal.digitsOf_ne_nil _
  whole := Decimal.digitsOf_lt _
  leading h := by
    by_cases hi : i.natAbs = 0
    · simp [Number.ofInt, hi, Decimal.digitsOf_small]
    · exact absurd h (Decimal.digitsOf_head hi)
  fraction := nofun

/-- A natural number is read back from its digits. -/
theorem Number.toInt?_ofInt (k : Nat) : (Number.ofInt k).toInt? = some (k : Int) := by
  have hneg : ¬ ((k : Int) < 0) := by omega
  simp [Number.toInt?, Number.ofInt, hneg, Decimal.ofDigits_digitsOf]

variable {rest : List Char}

theorem Stops.notDigit (h : Stops rest) : ∀ c ∈ rest.head?, isDigit c = false := by
  intro c hc
  have hstops := h c hc
  simp only [continuesNumber, Bool.or_eq_false_iff] at hstops
  exact hstops.1.1.1

/-- The text of the fraction of a number. -/
def Number.fractionText (n : Number) : List Char :=
  if n.fraction = [] then [] else '.' :: digitChars n.fraction

/-- The text of the exponent of a number. -/
def Number.exponentText (n : Number) : List Char :=
  match n.exponent with
  | none => []
  | some e => 'e' :: (if e < 0 then '-' else '+') :: digitChars (digitsOf e.natAbs)

theorem Number.write_eq (n : Number) :
    n.write = (if n.negative then ['-'] else []) ++ digitChars n.whole ++ n.fractionText ++ n.exponentText :=
  rfl

theorem exponent?_write (n : Number) (h : Stops rest) :
    exponent? (n.exponentText ++ rest) = some (n.exponent, rest) := by
  unfold Number.exponentText
  cases hexp : n.exponent with
  | none =>
    cases rest with
    | nil => rfl
    | cons c rest =>
      have hstops := h c rfl
      simp only [continuesNumber, Bool.or_eq_false_iff, decide_eq_false_iff_not] at hstops
      simp [exponent?, hstops.1.2, hstops.2]
  | some e =>
    have hspan := spanDigits_digitChars (Decimal.digitsOf_lt e.natAbs) h.notDigit
    have hne := Decimal.digitsOf_ne_nil e.natAbs
    have hvalue := Decimal.ofDigits_digitsOf e.natAbs
    by_cases hneg : e < 0
    · have he : -(ofDigits (digitsOf e.natAbs) : Int) = e := by omega
      simp only [hneg, if_true, List.cons_append, exponent?, signedDigits?, hspan]
      cases hds : digitsOf e.natAbs with
      | nil => exact absurd hds hne
      | cons d ds => simp [← hds, he]
    · have he : (ofDigits (digitsOf e.natAbs) : Int) = e := by omega
      simp only [hneg, if_false, List.cons_append, exponent?, signedDigits?, hspan]
      cases hds : digitsOf e.natAbs with
      | nil => exact absurd hds hne
      | cons d ds => simp [← hds, he]

/-- What follows the digits of a number is no digit. -/
theorem exponentText_notDigit (n : Number) (h : Stops rest) :
    ∀ c ∈ (n.exponentText ++ rest).head?, isDigit c = false := by
  unfold Number.exponentText
  cases n.exponent with
  | none => exact h.notDigit
  | some e =>
    intro c hc
    cases hc
    rfl

theorem fraction?_write {n : Number} (legal : n.Legal) (h : Stops rest) :
    fraction? (n.fractionText ++ (n.exponentText ++ rest)) = some (n.fraction, n.exponentText ++ rest) := by
  have hspan := spanDigits_digitChars legal.fraction (exponentText_notDigit n h)
  unfold Number.fractionText
  cases hds : n.fraction with
  | nil =>
    have hpoint : ∀ left, n.exponentText ++ rest ≠ '.' :: left := by
      intro left heq
      unfold Number.exponentText at heq
      cases hexp : n.exponent with
      | none =>
        simp only [hexp, List.nil_append] at heq
        have hstops := h '.' (by rw [heq]; rfl)
        cases hstops
      | some e => simp [hexp] at heq
    simp only [if_true, List.nil_append]
    unfold fraction?
    split
    next left heq => exact absurd heq (hpoint left)
    next => rfl
  | cons d ds =>
    rw [hds] at hspan
    simp [fraction?, hspan]

theorem fractionText_notDigit (n : Number) (h : Stops rest) :
    ∀ c ∈ (n.fractionText ++ (n.exponentText ++ rest)).head?, isDigit c = false := by
  unfold Number.fractionText
  split
  next => exact exponentText_notDigit n h
  next =>
    intro c hc
    cases hc
    rfl

/-- A number is read back digit for digit. -/
theorem number?_write {n : Number} (legal : n.Legal) (h : Stops rest) :
    number? (n.write ++ rest) = some (n, rest) := by
  have hwhole := spanDigits_digitChars legal.whole (fractionText_notDigit n h)
  have hfraction := fraction?_write legal h
  have hexponent := exponent?_write n h
  have hlegal : ¬ (n.whole = [] ∨ (n.whole.length > 1 ∧ n.whole.head? = some 0)) := by
    rintro (hnil | ⟨hlong, hzero⟩)
    · exact legal.nonempty hnil
    · have hone := legal.leading hzero
      omega
  -- a text without a sign begins with a digit
  have hunsigned : ∀ left, digitChars n.whole ++ (n.fractionText ++ (n.exponentText ++ rest)) ≠ '-' :: left := by
    intro left heq
    obtain ⟨d, ds, hds⟩ := List.exists_cons_of_ne_nil legal.nonempty
    have hd := isDigit_digitChar (legal.whole d (by rw [hds]; exact List.mem_cons_self ..))
    rw [hds] at heq
    rw [(List.cons.inj heq).1] at hd
    cases hd
  rw [Number.write_eq, List.append_assoc, List.append_assoc, List.append_assoc]
  unfold number?
  split
  next negative cs hsign =>
    have hpair : (negative, cs)
        = (n.negative, digitChars n.whole ++ (n.fractionText ++ (n.exponentText ++ rest))) := by
      rw [← hsign]
      cases n.negative with
      | true => rfl
      | false =>
        split
        next left heq => exact absurd heq (hunsigned left)
        next => rfl
    cases hpair
    simp only [hwhole, if_neg hlegal, hfraction, Option.bind_eq_bind, Option.bind_some, hexponent]
    rfl

/-! ## Strings -/

/-- The element that a character is written as: a code if it is a control character without a letter. -/
def unitOf (c : Char) : StringUnit :=
  if c.toNat < 32 ∧ c ∉ ['\n', '\r', '\t', Char.ofNat 8, Char.ofNat 12] then .unit c.toNat else .char c

theorem hexUnit?_control {n : Nat} (h : n < 32) :
    hexUnit? '0' '0' (hexChar (n / 16)) (hexChar (n % 16)) = some n := by
  revert n
  decide

/-- A string with one more element at its front. -/
def consUnit (unit : StringUnit) (read : List StringUnit × List Char) : List StringUnit × List Char :=
  (unit :: read.1, read.2)

theorem stringUnits?_plain {c : Char} (hquote : c ≠ '"') (hslash : c ≠ '\\') (hcontrol : ¬ c.toNat < 32)
    (cs : List Char) : stringUnits? (c :: cs) = (stringUnits? cs).map (consUnit (.char c)) := by
  rw [stringUnits?.eq_def]
  split
  next heq => cases heq
  next heq => exact absurd (List.cons.inj heq).1 hquote
  next heq => exact absurd (List.cons.inj heq).1 hslash
  next heq => exact absurd (List.cons.inj heq).1 hslash
  next heq =>
    cases heq
    rw [if_neg fun h => h.elim hcontrol hslash]
    cases stringUnits? cs <;> rfl

theorem stringUnits?_short {e c : Char} (h : shortEscape? e = some c) (cs : List Char) :
    stringUnits? ('\\' :: e :: cs) = (stringUnits? cs).map (consUnit (.char c)) := by
  have hu : e ≠ 'u' := by
    rintro rfl
    cases h
  rw [stringUnits?.eq_4 e cs fun _ _ _ _ _ heq => absurd heq hu, h]
  cases stringUnits? cs <;> rfl

theorem stringUnits?_code {n : Nat} (h : n < 32) (cs : List Char) :
    stringUnits? ('\\' :: 'u' :: '0' :: '0' :: hexChar (n / 16) :: hexChar (n % 16) :: cs)
      = (stringUnits? cs).map (consUnit (.unit n)) := by
  rw [stringUnits?.eq_3, hexUnit?_control h]
  cases stringUnits? cs <;> rfl

theorem eq_ofNat_of_toNat {c : Char} {n : Nat} (h : c.toNat = n) : c = Char.ofNat n := by
  rw [← h, Char.ofNat_toNat]

/-- Every character is written as one element. -/
theorem stringUnits?_escapeChar (c : Char) (cs : List Char) :
    stringUnits? (escapeChar c ++ cs) = (stringUnits? cs).map (consUnit (unitOf c)) := by
  have hshort {e : Char} (h : shortEscape? e = some c) (hunit : unitOf c = .char c) :
      stringUnits? ('\\' :: e :: cs) = (stringUnits? cs).map (consUnit (unitOf c)) := by
    rw [hunit]
    exact stringUnits?_short h cs
  unfold escapeChar
  split
  next h => subst h; exact hshort rfl rfl
  next hquote =>
  split
  next h => subst h; exact hshort rfl rfl
  next hslash =>
  split
  next h => subst h; exact hshort rfl rfl
  next hn =>
  split
  next h => subst h; exact hshort rfl rfl
  next hr =>
  split
  next h => subst h; exact hshort rfl rfl
  next ht =>
  split
  next h => rw [eq_ofNat_of_toNat h] at hshort ⊢; exact hshort rfl rfl
  next hb =>
  split
  next h => rw [eq_ofNat_of_toNat h] at hshort ⊢; exact hshort rfl rfl
  next hf =>
  split
  next hcontrol =>
    have hunit : unitOf c = .unit c.toNat := by
      refine if_pos ⟨hcontrol, ?_⟩
      simp only [List.mem_cons, List.not_mem_nil, or_false, not_or]
      exact ⟨hn, hr, ht, fun h => hb (by rw [h]; rfl), fun h => hf (by rw [h]; rfl)⟩
    rw [hunit]
    exact stringUnits?_code hcontrol cs
  next hcontrol =>
    rw [unitOf, if_neg fun h => hcontrol h.1]
    exact stringUnits?_plain hquote hslash hcontrol cs

theorem stringUnits?_quoted (cs : List Char) :
    stringUnits? (cs.flatMap escapeChar ++ '"' :: rest) = some (cs.map unitOf, rest) := by
  induction cs with
  | nil => rfl
  | cons c cs ih =>
    rw [List.flatMap_cons, List.append_assoc, stringUnits?_escapeChar, ih]
    rfl

/-- An element stands for its character. -/
theorem joinUnits?_unitOf (cs : List Char) : joinUnits? (cs.map unitOf) = some cs := by
  induction cs with
  | nil => rfl
  | cons c cs ih =>
    rw [List.map_cons, unitOf]
    split
    next h =>
      have hlow : c.toNat < 0xD800 ∨ 0xDFFF < c.toNat := by omega
      rw [joinUnits?.eq_def]
      simp only [if_pos hlow, ih, Char.ofNat_toNat]
      rfl
    next =>
      rw [joinUnits?, ih]
      rfl

/-- A string is read back, whatever it contains. -/
theorem string?_quote (s : String) :
    string? (s.toList.flatMap escapeChar ++ '"' :: rest) = some (some s, rest) := by
  simp [string?, stringUnits?_quoted, joinUnits?_unitOf]

end Json
end Playback
