import StreamTables.Json.Decode
import StreamTables.Proofs.Json.Numeral
import StreamTables.Proofs.Traversal

/-!
# What decoders accept

Each decoder accepts one form of trees.  This file says for the decoders of strings, numbers, lists
and pairs what a tree is that was accepted, in a form that serves both ways: for a tree that was
read, and for one that was written and is to be read back.

## What is here

* `Json.decodeString_eq_ok_iff` and its like: the trees that are accepted.
* `Json.decodeInt_int` and its like: integers are read back.
* `Decoder.ofText_eq_ok_iff`: what is read of a text.
-/

set_option autoImplicit false

namespace StreamTables
namespace Json

variable {α β : Type} {depth : Nat} {j : Json}

theorem orRefuse_eq_ok_iff {x : Option α} {a : α} :
    orRefuse x = .ok a ↔ x = some a := by
  cases x with
  | none => exact ⟨(nomatch ·), (nomatch ·)⟩
  | some b => exact ⟨fun h => congrArg some (Except.ok.inj h), fun h => by cases h; rfl⟩

theorem decodeString_eq_ok_iff {s : String} :
    decodeString depth j = .ok s ↔ j = .string (some s) := by
  constructor
  · intro h
    unfold decodeString at h
    split at h
    · cases h; rfl
    · exact nomatch h
  · rintro rfl
    rfl

theorem decodeBool_eq_ok_iff {b : Bool} : decodeBool depth j = .ok b ↔ j = .bool b := by
  constructor
  · intro h
    unfold decodeBool at h
    split at h
    · cases h; rfl
    · exact nomatch h
  · rintro rfl
    rfl

theorem decodeInt_eq_ok_iff {low high i : Int} :
    decodeInt low high depth j = .ok i ↔
      ∃ n, j = .number n ∧ n.integer? = some i ∧ low ≤ i ∧ i < high := by
  constructor
  · intro h
    unfold decodeInt at h
    split at h
    · next n =>
      split at h
      · next k hk =>
        split at h
        · next hb => cases h; exact ⟨n, rfl, hk, hb⟩
        · exact nomatch h
      · exact nomatch h
    · exact nomatch h
  · rintro ⟨n, rfl, hi, hb⟩
    rw [decodeInt, hi]
    exact if_pos hb

theorem decodeList_eq_ok_iff {item : Decoder α} {as : List α} :
    decodeList item depth j = .ok as ↔
      ∃ d js, depth = d + 1 ∧ j = .array js ∧
        List.Forall₂ (fun i a => item d i = .ok a) js as := by
  constructor
  · intro h
    unfold decodeList at h
    split at h
    · next d js => exact ⟨d, js, rfl, rfl, List.mapM_eq_ok_iff.1 h⟩
    · exact nomatch h
  · rintro ⟨d, js, rfl, rfl, h⟩
    exact List.mapM_eq_ok_iff.2 h

theorem decodePair_eq_ok_iff {first : Decoder α} {second : Decoder β} {p : α × β} :
    decodePair first second depth j = .ok p ↔
      ∃ d x y, depth = d + 1 ∧ j = .array [x, y] ∧ first d x = .ok p.1 ∧
        second d y = .ok p.2 := by
  constructor
  · intro h
    unfold decodePair at h
    split at h
    · next d x y =>
      obtain ⟨a, ha, h⟩ := Except.bind_eq_ok_iff.1 h
      obtain ⟨b, hb, h⟩ := Except.bind_eq_ok_iff.1 h
      cases h
      exact ⟨d, x, y, rfl, rfl, ha, hb⟩
    · exact nomatch h
  · rintro ⟨d, x, y, rfl, rfl, hx, hy⟩
    exact Except.bind_eq_ok_iff.2 ⟨p.1, hx, Except.bind_eq_ok_iff.2 ⟨p.2, hy, rfl⟩⟩

/-! ## Integers are read back -/

theorem decodeInt_int {low high i : Int} (hl : low ≤ i) (hh : i < high) :
    decodeInt low high depth (.int i) = .ok i :=
  decodeInt_eq_ok_iff.2 ⟨_, rfl, Numeral.integer?_ofInt i, hl, hh⟩

theorem decodeInt32_int (i : Int32) : decodeInt32 depth (.int i.toInt) = .ok i := by
  rw [decodeInt32, decodeInt_int i.le_toInt i.toInt_lt, Except.map, Int32.ofInt_toInt]

theorem decodeInt64_int (i : Int64) : decodeInt64 depth (.int i.toInt) = .ok i := by
  rw [decodeInt64, decodeInt_int i.le_toInt i.toInt_lt, Except.map, Int64.ofInt_toInt]

theorem decodeUInt8_int (b : UInt8) : decodeUInt8 depth (.int b.toNat) = .ok b := by
  have hb : (b.toNat : Int) < 2 ^ 8 := by
    have := b.toNat_lt
    omega
  rw [decodeUInt8, decodeInt_int (Int.natCast_nonneg _) hb, Except.map, Int.toNat_natCast,
    UInt8.ofNat_toNat]

theorem decodeUInt64_int (n : UInt64) : decodeUInt64 depth (.int n.toNat) = .ok n := by
  have hn : (n.toNat : Int) < 2 ^ 64 := by
    have := n.toNat_lt
    omega
  rw [decodeUInt64, decodeInt_int (Int.natCast_nonneg _) hn, Except.map, Int.toNat_natCast,
    UInt64.ofNat_toNat]

end Json

/-- What is read of a text is what is read of its tree, if the text ends there. -/
theorem Decoder.ofText_eq_ok_iff {α : Type} {decode : Decoder α} {s : String} {a : α} :
    decode.ofText s = .ok a ↔
      decode maxDepth (Document.ofText s).tree = .ok a ∧ (Document.ofText s).ended = true := by
  rw [ofText, Except.bind_eq_ok_iff]
  constructor
  · rintro ⟨b, hb, h⟩
    split at h
    · next hended =>
      cases h
      exact ⟨hb, hended⟩
    · exact nomatch h
  · rintro ⟨ha, hended⟩
    exact ⟨a, ha, if_pos hended⟩

end StreamTables
