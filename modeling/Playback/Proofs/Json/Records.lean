import Playback.Json.Fields
import Playback.Proofs.Json.Doubles
import Playback.Proofs.Json.Texts

/-!
# Fields read back

A record that is written under its own field names gives each field back by name (`fields?_record`), and the
readers of single values take what is written for natural numbers and names. A double is taken back if its
number is read as the same double (`ReadsBack`), and never if it is not finite: then there is `null` in its
place (`readScalar_infinite`).
-/

namespace Playback.Json

/-- What is written for a scalar is read as that scalar. -/
def ReadsBack {R : Type} [TextScalar R] (x : R) : Prop :=
  ∀ n, TextScalar.toNumber? x = some n → TextScalar.ofNumber? n = some x

/-! ## Records -/

theorem occurrences_record (name : String) (entries : List (String × Json)) :
    occurrences name (entries.map fun (n, v) => (some n, v)) = (entries.map (·.1)).count name := by
  induction entries with
  | nil => rfl
  | cons e entries ih =>
    rw [occurrences] at ih ⊢
    simp only [List.map_cons, List.countP_cons, List.count_cons, ih, Option.some_beq_some]
    rfl

/-- A record gives each of its fields by name. -/
theorem fields?_record {names : List String} {entries : List (String × Json)}
    (hnames : entries.map (·.1) = names) (distinct : names.Nodup) :
    fields? names (record entries)
      = some ⟨false, fun name => lookup name (entries.map fun (n, v) => (some n, v))⟩ := by
  have hsome : (entries.map fun (n, v) => (some n, v)).all (·.1.isSome) = true := by
    simp [List.all_eq_true]
  have honce : names.all (fun name => occurrences name (entries.map fun (n, v) => (some n, v)) ≤ 1) = true := by
    rw [List.all_eq_true]
    intro name _
    rw [decide_eq_true_eq, occurrences_record, hnames]
    exact List.nodup_iff_count.mp distinct name
  rw [record, fields?, hsome, honce]
  rfl

/-! ## Single values -/

theorem readNat_int (bits : Nat) {k : Nat} (h : k < Nat.pow 2 bits) : readNat bits (.int k) = some k := by
  simp only [readNat, int, Number.toInt?_ofInt]
  exact if_pos h

/-- Names that differ are told apart. -/
theorem readName_text {α : Type} {name : α → String} {all : List α}
    (distinct : ∀ a ∈ all, all.find? (fun b => name b == name a) = some a) {a : α} (ha : a ∈ all) :
    readName name all (text (name a)) = some a :=
  distinct a ha

theorem readString_text (s : String) : readString (text s) = some s := rfl

theorem ofScalar_legal (x : Float) : (ofScalar x).Legal := by
  unfold ofScalar
  split
  next n hn => exact ofDouble?_legal hn
  next => trivial

/-- A finite double is taken back if its number is. -/
theorem readScalar_finite {x : Float} (reads : ReadsBack x) (h : x.isFinite = true) :
    readScalar (ofScalar x) = some x := by
  obtain ⟨n, hn⟩ := ofDouble?_some h
  have hnumber : ofScalar x = .number n := by
    unfold ofScalar
    rw [show TextScalar.toNumber? x = some n from hn]
  rw [hnumber]
  exact reads n hn

/-- A double that is not finite is never taken back. -/
theorem readScalar_infinite {x : Float} (h : x.isFinite = false) : (readScalar (ofScalar x) : Option Float) = none := by
  have hnull : ofScalar x = .null := by
    unfold ofScalar
    rw [show TextScalar.toNumber? x = none from ofDouble?_none h]
  rw [hnull]
  rfl

end Playback.Json
