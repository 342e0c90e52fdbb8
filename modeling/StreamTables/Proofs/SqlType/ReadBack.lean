import StreamTables.Proofs.Json.ReadBack
import StreamTables.SqlType.Json

/-!
# Types are read back

## What is here

* `SqlType.readsBack_kind`: a type behind the name of its kind is read back if its parameters are.
* `SqlType.readsBack_decodeFuel`, `SqlType.readsBack_json`: every type is read back, by a decoder
  that is cut off no earlier than it may look.
-/

set_option autoImplicit false

namespace StreamTables
namespace SqlType

open Json

variable {limit : Nat}

theorem primitiveOfName?_name (p : Primitive) :
    primitiveOfName? p.baseType.name = some (.primitive p) := by
  cases p <;> decide

theorem readsBack_primitive (p : Primitive) (fuel : Nat) :
    (decodeFuel fuel).ReadsBack limit (json (.primitive p)) (.primitive p) where
  written := rfl
  eq_ok depth _ _ := by
    cases fuel <;> cases depth <;> exact orRefuse_eq_ok_iff.2 (primitiveOfName?_name p)

/-- **A type behind the name of its kind is read back if its parameters are.** -/
theorem readsBack_kind {kind : String} {j : Json} {t : SqlType} {parameters : Nat → Decoder SqlType}
    (hplain : Literal.plain kind = .ofText kind)
    (h : ∀ fuel, (parameters fuel).ReadsBack fuel j t)
    (hkind : ∀ fuel depth, decodeFuel (fuel + 1) (depth + 1) (.record [(kind, j)])
      = parameters fuel depth j) (fuel : Nat) :
    (decodeFuel fuel).ReadsBack fuel (.record [(kind, j)]) t where
  written := isWritten_record (List.forall_mem_singleton.2 ⟨hplain, (h 0).written⟩)
  eq_ok depth hdepth hfuel := by
    obtain ⟨d, rfl, hj⟩ := depth_record_le_iff.1 hdepth
    obtain ⟨f, rfl⟩ := Nat.exists_eq_add_one_of_ne_zero (by omega : fuel ≠ 0)
    -- Fuel and depth go down together, so the parameters are cut off no earlier either.
    rw [hkind]
    exact (h f).eq_ok d (hj _ (List.mem_singleton_self _)) (by omega)

theorem readsBack_decodeDecimal (precision scale : UInt8) :
    decodeDecimal.ReadsBack limit
      (.record [("precision", .int precision.toNat), ("scale", .int scale.toNat)])
      (.decimal precision scale) := by
  refine readsBack_struct
    [⟨"precision", .int precision.toNat, fun d => { d with precision := some precision }⟩,
      ⟨"scale", .int scale.toNat, fun d => { d with scale := some scale }⟩]
    rfl (by decide) (by decide) ?_ rfl
  simp only [List.forall_mem_cons]
  exact ⟨.of_decoder (readsBack_uint8 precision) fun _ _ => ⟨_, rfl, rfl⟩,
    .of_decoder (readsBack_uint8 scale) fun _ _ => ⟨_, rfl, rfl⟩, List.forall_mem_nil _⟩

theorem readsBack_decodeNamed {type : Decoder SqlType} {j : Json} {t : SqlType} (name : String)
    (h : type.ReadsBack limit j t) :
    (decodeNamed type).ReadsBack limit (.record [("name", .text name), ("type", j)]) (name, t) := by
  refine readsBack_struct
    [⟨"name", .text name, fun d => { d with name := some name }⟩,
      ⟨"type", j, fun d => { d with type := some t }⟩]
    rfl (by decide) (by decide) ?_ rfl
  simp only [List.forall_mem_cons]
  exact ⟨.of_decoder (readsBack_text name) fun _ _ => ⟨_, rfl, rfl⟩,
    .of_decoder h fun _ _ => ⟨_, rfl, rfl⟩, List.forall_mem_nil _⟩

theorem fieldsJson_eq_map (fs : List (String × SqlType)) :
    fieldsJson fs = fs.map fun f => .record [("name", .text f.1), ("type", f.2.json)] := by
  induction fs with
  | nil => rfl
  | cons f fs ih => rw [fieldsJson, ih, List.map_cons]

-- By recursion on the type and not on the fuel: a tree is the same after writing and reading
-- whatever the fuel is, and only the types know how deep they nest.
mutual

/-- **A type is read back** by a decoder that is cut off no earlier than it may look. -/
theorem readsBack_decodeFuel : ∀ (t : SqlType) (fuel : Nat),
    (decodeFuel fuel).ReadsBack fuel t.json t
  | .primitive p, fuel => readsBack_primitive p fuel
  | .decimal precision scale, fuel =>
    readsBack_kind (by decide) (fun _ => readsBack_decodeDecimal precision scale)
      (fun _ _ => rfl) fuel
  | .array element, fuel =>
    readsBack_kind (by decide) (fun f => (readsBack_decodeFuel element f).map SqlType.array)
      (fun _ _ => rfl) fuel
  | .map key value, fuel =>
    readsBack_kind (by decide)
      (fun f => (readsBack_pair (readsBack_decodeFuel key f) (readsBack_decodeFuel value f)).map
        fun (k, v) => SqlType.map k v)
      (fun _ _ => rfl) fuel
  | .struct fields, fuel => by
    rw [json, fieldsJson_eq_map]
    exact readsBack_kind (by decide)
      (fun f => (readsBack_list fun p hp =>
        readsBack_decodeNamed p.1 (readsBack_fields fields f p hp)).map SqlType.struct)
      (fun _ _ => rfl) fuel

theorem readsBack_fields : ∀ (fs : List (String × SqlType)) (fuel : Nat),
    ∀ p ∈ fs, (decodeFuel fuel).ReadsBack fuel p.2.json p.2
  | [], _, _, hp => nomatch hp
  | (_, t) :: fs, fuel, p, hp => by
    rcases List.mem_cons.1 hp with rfl | hp
    · exact readsBack_decodeFuel t fuel
    · exact readsBack_fields fs fuel p hp

end

theorem readsBack_json (t : SqlType) : decode.ReadsBack limit t.json t where
  written := (readsBack_decodeFuel t 0).written
  eq_ok depth hdepth _ := (readsBack_decodeFuel t depth).eq_ok depth hdepth (Nat.le_refl depth)

end SqlType
end StreamTables
