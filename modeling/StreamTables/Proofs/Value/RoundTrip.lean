import StreamTables.Proofs.Decimal.RoundTrip
import StreamTables.Proofs.Json.Denotation
import StreamTables.Proofs.Json.ReadBack
import StreamTables.Proofs.Value.Atoms

/-!
# A written value is read back

What a value is written as is always read, unless it nests too deep: a reader looks into so many
brackets at most, and the brackets of a tree that was read bound those that its value is written
with.  What is read equals the value, except that a double may be read as its neighbour.

## What is here

* `Value.decodeAs`: what is read behind the name of a kind.
* `Decoder.Bounds`, `Value.bounds_decodeFuel`: what is known of a value that was read.
* `Value.decodeFuel_json`: what is written is read back.
* `Value.decode_json`: and it is read if and only if it does not nest too deep.
-/

set_option autoImplicit false

namespace StreamTables

namespace Value

/-! ## The decoder, kind by kind -/

/-- What is read behind the name of a kind. -/
def decodeAs (fuel : Nat) : BaseType → Decoder Value
  | .boolean => fun depth j => (Json.decodeBool depth j).map .boolean
  | .integer => fun depth j => (Json.decodeInt32 depth j).map .integer
  | .bigint => fun depth j => (Json.decodeInt64 depth j).map .bigint
  | .decimal => fun depth j => (decodeDecimal depth j).map .decimal
  | .double => fun depth j => (decodeDouble depth j).map .double
  | .string => fun depth j => (Json.decodeString depth j).map .string
  | .bytes => fun depth j => (Json.decodeList Json.decodeUInt8 depth j).map .bytes
  | .date => fun depth j => (Json.decodeInt32 depth j).map .date
  | .time => fun depth j => (Json.decodeInt64 depth j).map .time
  | .timestamp => fun depth j => (Json.decodeInt64 depth j).map .timestamp
  | .array => fun depth j => (Json.decodeList (decodeFuel fuel) depth j).map .array
  | .map => fun depth j =>
    (Json.decodeList (Json.decodePair (decodeFuel fuel) (decodeFuel fuel)) depth j).map .map
  | .struct => fun depth j =>
    (Json.decodeList (Json.decodePair Json.decodeString (decodeFuel fuel)) depth j).map .struct

theorem decodeFuel_object (fuel depth : Nat) (name : Literal) (j : Json) :
    decodeFuel (fuel + 1) (depth + 1) (.object [(name, j)]) =
      match name.text?.bind BaseType.ofName? with
      | some kind => decodeAs fuel kind depth j
      | none => decodeNull (depth + 1) (.object [(name, j)]) := by
  rw [decodeFuel]
  cases name.text?.bind BaseType.ofName? with
  | none => rfl
  | some kind => cases kind <;> rfl

theorem ofName?_name (kind : BaseType) : BaseType.ofName? kind.name = some kind := by
  cases kind <;> decide

theorem decodeFuel_tagged (fuel depth : Nat) (kind : BaseType) (j : Json) :
    decodeFuel (fuel + 1) (depth + 1) (tagged kind j) = decodeAs fuel kind depth j := by
  have hname : (Literal.plain kind.name).text?.bind BaseType.ofName? = some kind :=
    ofName?_name kind
  rw [tagged, Json.record, List.map_singleton, decodeFuel_object, hname]

/-- A value that was read is null, or comes from behind the name of its kind. -/
theorem decodeFuel_eq_ok {fuel depth : Nat} {j : Json} {v : Value}
    (h : decodeFuel fuel depth j = .ok v) :
    (decodeNull depth j = .ok v) ∨
      ∃ f d name i kind, fuel = f + 1 ∧ depth = d + 1 ∧ j = .object [(name, i)] ∧
        decodeAs f kind d i = .ok v := by
  unfold decodeFuel at h
  split at h
  · next f d name i =>
    have h' := decodeFuel_object f d name i
    rw [decodeFuel] at h'
    rw [h'] at h
    split at h
    · next kind _ => exact .inr ⟨f, d, name, i, kind, rfl, rfl, rfl, h⟩
    · exact .inl h
  · exact .inl h

/-! ## What is known of a value that was read -/

theorem decodeNull_eq_ok {depth : Nat} {j : Json} {v : Value} (h : decodeNull depth j = .ok v) :
    v = null ∧ j.depth ≤ depth := by
  have hnull : ∀ {s : String}, (if s = nullName then some null else none) = some v → v = null := by
    intro s hs
    split at hs
    · cases hs; rfl
    · exact nomatch hs
  unfold decodeNull Json.decodeName at h
  split at h
  · exact ⟨hnull (Json.orRefuse_eq_ok_iff.1 h), Nat.zero_le _⟩
  · obtain ⟨s, -, hs⟩ := Option.bind_eq_some_iff.1 (Json.orRefuse_eq_ok_iff.1 h)
    exact ⟨hnull hs, Nat.succ_le_succ (Nat.zero_le _)⟩
  · exact nomatch h

theorem decodeDecimal_eq_ok {depth : Nat} {j : Json} {d : Decimal}
    (h : decodeDecimal depth j = .ok d) :
    Decimal.scaleFits d.scale = true ∧ j.depth ≤ depth := by
  fun_induction decodeDecimal depth j with
  | case1 depth s =>
    refine ⟨?_, Nat.zero_le _⟩
    exact Decimal.scaleFits_of_ofChars? (Json.orRefuse_eq_ok_iff.1 h)
  | case2 depth n =>
    exact ⟨Decimal.scaleFits_of_decimal? (Json.orRefuse_eq_ok_iff.1 h), Nat.zero_le _⟩
  | case3 depth j ih =>
    obtain ⟨hfits, hdepth⟩ := ih h
    refine ⟨hfits, ?_⟩
    rw [Json.depth, Json.fieldsDepth, Json.fieldsDepth, Nat.max_zero]
    exact Nat.succ_le_succ hdepth
  | case4 => cases h
  | case5 => cases h

theorem decodeDouble_eq_ok {depth : Nat} {j : Json} {d : Double}
    (h : decodeDouble depth j = .ok d) :
    d.isFinite = true ∧ j.depth = 0 := by
  unfold decodeDouble at h
  split at h
  · exact ⟨Numeral.isFinite_of_double? (Json.orRefuse_eq_ok_iff.1 h), rfl⟩
  · exact nomatch h

/-- The brackets of arrays whose items relate one by one. -/
theorem depth_array_mono {js is : List Json}
    (h : List.Forall₂ (fun j i => i.depth ≤ j.depth) js is) :
    (Json.array is).depth ≤ (Json.array js).depth := by
  rw [Json.depth, Json.depth]
  refine Nat.succ_le_succ ?_
  induction h with
  | nil => exact Nat.le_refl _
  | cons hji _ ih =>
    rw [Json.itemsDepth, Json.itemsDepth]
    omega

end Value

/-- What is known of all that a decoder accepts: it has a property, and if it is written as the tree
`f a`, then with no more brackets than were read, which are no more than the reader looks into. -/
def Decoder.Bounds {α : Type} (decode : Decoder α) (f : α → Json) (p : α → Prop) : Prop :=
  ∀ depth j a, decode depth j = .ok a → p a ∧ (f a).depth ≤ j.depth ∧ j.depth ≤ depth

namespace Value

variable {α β : Type}

/-- A tree without brackets. -/
theorem bounds_flat {decode : Decoder α} {f : α → Json} {p : α → Prop} (hf : ∀ a, (f a).depth = 0)
    (h : ∀ depth j a, decode depth j = .ok a → p a ∧ j.depth = 0) : Decoder.Bounds decode f p := by
  intro depth j a ha
  obtain ⟨hp, hj⟩ := h depth j a ha
  rw [hf, hj]
  exact ⟨hp, Nat.le_refl _, Nat.zero_le _⟩

theorem bounds_decodeList {item : Decoder α} {f : α → Json} {p : α → Prop}
    (h : Decoder.Bounds item f p) :
    Decoder.Bounds (Json.decodeList item) (fun as => .array (as.map f))
      (fun as => ∀ a ∈ as, p a) := by
  intro depth j as has
  obtain ⟨d, js, rfl, rfl, hall⟩ := Json.decodeList_eq_ok_iff.1 has
  refine ⟨fun a ha => ?_, depth_array_mono ?_, Json.depth_array_le_iff.2 ⟨d, rfl, fun i hi => ?_⟩⟩
  · obtain ⟨i, -, hi⟩ := hall.flip.exists_of_mem ha
    exact (h d i a hi).1
  · rw [List.forall₂_map_right_iff]
    exact hall.imp fun i a hi => (h d i a hi).2.1
  · obtain ⟨a, -, ha⟩ := hall.exists_of_mem hi
    exact (h d i a ha).2.2

theorem bounds_decodePair {first : Decoder α} {second : Decoder β} {f : α → Json} {g : β → Json}
    {p : α → Prop} {q : β → Prop} (hfirst : Decoder.Bounds first f p)
    (hsecond : Decoder.Bounds second g q) :
    Decoder.Bounds (Json.decodePair first second) (fun e => .array [f e.1, g e.2])
      (fun e => p e.1 ∧ q e.2) := by
  intro depth j e he
  obtain ⟨d, x, y, rfl, rfl, hx, hy⟩ := Json.decodePair_eq_ok_iff.1 he
  obtain ⟨hp, hxle, hxd⟩ := hfirst d x e.1 hx
  obtain ⟨hq, hyle, hyd⟩ := hsecond d y e.2 hy
  refine ⟨⟨hp, hq⟩, depth_array_mono (.cons hxle (.cons hyle .nil)),
    Json.depth_array_le_iff.2 ⟨d, rfl, fun i hi => ?_⟩⟩
  rcases List.mem_cons.1 hi with rfl | hi
  · exact hxd
  · rw [List.mem_singleton.1 hi]
    exact hyd

/-- A part of its kind, behind the kind's name. -/
theorem bounds_atom {decode : Decoder α} {f : α → Json} {p : α → Prop} {kind : BaseType}
    {make : α → Value} {depth : Nat} {j : Json} {v : Value} (hv : (decode depth j).map make = .ok v)
    (h : Decoder.Bounds decode f p) (hatoms : ∀ a, (make a).atoms = [make a])
    (hp : ∀ a, p a → (make a).IsReadableAtom ∧ (make a).json = tagged kind (f a)) :
    v.IsReadable ∧ v.json.depth ≤ j.depth + 1 ∧ j.depth ≤ depth := by
  obtain ⟨a, ha, rfl⟩ := Except.map_eq_ok_iff.1 hv
  obtain ⟨hpa, hle, hj⟩ := h depth j a ha
  obtain ⟨hread, hjson⟩ := hp a hpa
  refine ⟨fun b hb => ?_, ?_, hj⟩
  · rw [hatoms, List.mem_singleton] at hb
    rw [hb]
    exact hread
  · rw [hjson, depth_tagged]
    exact Nat.succ_le_succ hle

theorem bounds_decodeBool : Decoder.Bounds Json.decodeBool .bool fun _ => True :=
  bounds_flat (fun _ => rfl) fun _ _ _ h => ⟨trivial, by rw [Json.decodeBool_eq_ok_iff.1 h]; rfl⟩

theorem bounds_decodeString : Decoder.Bounds Json.decodeString .text fun _ => True :=
  bounds_flat (fun _ => rfl) fun _ _ _ h => ⟨trivial, by rw [Json.decodeString_eq_ok_iff.1 h]; rfl⟩

/-- An integer of any width. -/
theorem bounds_map_decodeInt {low high : Int} {g : Int → α} {f : α → Json}
    (hf : ∀ a, (f a).depth = 0) :
    Decoder.Bounds (fun depth j => (Json.decodeInt low high depth j).map g) f fun _ => True :=
  bounds_flat hf fun _ _ _ h => by
    obtain ⟨i, hi, -⟩ := Except.map_eq_ok_iff.1 h
    obtain ⟨n, rfl, -⟩ := Json.decodeInt_eq_ok_iff.1 hi
    exact ⟨trivial, rfl⟩

theorem bounds_decodeInt32 :
    Decoder.Bounds Json.decodeInt32 (fun i => .int i.toInt) fun _ => True :=
  bounds_map_decodeInt fun _ => rfl

theorem bounds_decodeInt64 :
    Decoder.Bounds Json.decodeInt64 (fun i => .int i.toInt) fun _ => True :=
  bounds_map_decodeInt fun _ => rfl

theorem bounds_decodeUInt8 :
    Decoder.Bounds Json.decodeUInt8 (fun b => .int b.toNat) fun _ => True :=
  bounds_map_decodeInt fun _ => rfl

theorem bounds_decodeDecimal :
    Decoder.Bounds decodeDecimal (fun d => .text d.text)
      fun d => Decimal.scaleFits d.scale = true := by
  intro depth j d h
  obtain ⟨hfits, hj⟩ := decodeDecimal_eq_ok h
  exact ⟨hfits, Nat.zero_le _, hj⟩

theorem bounds_decodeDouble :
    Decoder.Bounds decodeDouble (fun d => .number (.ofDouble d)) fun d => d.isFinite = true :=
  bounds_flat (fun _ => rfl) fun _ _ _ h => decodeDouble_eq_ok h

/-- An array of others, behind the name of a kind. -/
theorem bounds_list {decode : Decoder α} {f : α → Json} {p : α → Prop} {kind : BaseType}
    {make : List α → Value} {depth : Nat} {j : Json} {v : Value}
    (hv : (Json.decodeList decode depth j).map make = .ok v) (h : Decoder.Bounds decode f p)
    (hread : ∀ as, (∀ a ∈ as, p a) → (make as).IsReadable)
    (hjson : ∀ as, (make as).json = tagged kind (.array (as.map f))) :
    v.IsReadable ∧ v.json.depth ≤ j.depth + 1 ∧ j.depth ≤ depth := by
  obtain ⟨as, has, rfl⟩ := Except.map_eq_ok_iff.1 hv
  obtain ⟨hp, hle, hj⟩ := bounds_decodeList h depth j as has
  refine ⟨hread as hp, ?_, hj⟩
  rw [hjson, depth_tagged]
  exact Nat.succ_le_succ hle

theorem isReadable_array {vs : List Value} (h : ∀ v ∈ vs, v.IsReadable) :
    (array vs).IsReadable := by
  intro a ha
  obtain ⟨v, hv, ha⟩ := mem_listAtoms.1 ha
  exact h v hv a ha

theorem isReadable_map {es : List (Value × Value)}
    (h : ∀ e ∈ es, e.1.IsReadable ∧ e.2.IsReadable) : (map es).IsReadable := by
  intro a ha
  obtain ⟨e, he, ha⟩ := mem_entriesAtoms.1 ha
  exact ha.elim ((h e he).1 a) ((h e he).2 a)

theorem isReadable_struct {fs : List (String × Value)} (h : ∀ f ∈ fs, True ∧ f.2.IsReadable) :
    (struct fs).IsReadable := by
  intro a ha
  obtain ⟨f, hf, ha⟩ := mem_fieldsAtoms.1 ha
  exact (h f hf).2 a ha

theorem bounds_decodeNull : Decoder.Bounds decodeNull json IsReadable := by
  intro depth j v h
  obtain ⟨rfl, hj⟩ := decodeNull_eq_ok h
  refine ⟨fun a ha => ?_, Nat.zero_le _, hj⟩
  rw [List.mem_singleton.1 ha]
  trivial

theorem bounds_decodeAs {fuel : Nat} (ih : Decoder.Bounds (decodeFuel fuel) json IsReadable)
    {kind : BaseType} {depth : Nat} {j : Json} {v : Value}
    (h : decodeAs fuel kind depth j = .ok v) :
    v.IsReadable ∧ v.json.depth ≤ j.depth + 1 ∧ j.depth ≤ depth := by
  cases kind with
  | boolean => exact bounds_atom h bounds_decodeBool (fun _ => rfl) (fun _ _ => ⟨trivial, rfl⟩)
  | integer => exact bounds_atom h bounds_decodeInt32 (fun _ => rfl) (fun _ _ => ⟨trivial, rfl⟩)
  | bigint => exact bounds_atom h bounds_decodeInt64 (fun _ => rfl) (fun _ _ => ⟨trivial, rfl⟩)
  | decimal => exact bounds_atom h bounds_decodeDecimal (fun _ => rfl) (fun _ hd => ⟨hd, rfl⟩)
  | double =>
    have hjson : ∀ d : Double, d.isFinite = true →
        (double d).json = tagged .double (.number (.ofDouble d)) := fun d hd => by
      rw [json, if_pos hd]
    exact bounds_atom h bounds_decodeDouble (fun _ => rfl) (fun d hd => ⟨hd, hjson d hd⟩)
  | string => exact bounds_atom h bounds_decodeString (fun _ => rfl) (fun _ _ => ⟨trivial, rfl⟩)
  | bytes =>
    exact bounds_atom h (bounds_decodeList bounds_decodeUInt8) (fun _ => rfl)
      (fun _ _ => ⟨trivial, rfl⟩)
  | date => exact bounds_atom h bounds_decodeInt32 (fun _ => rfl) (fun _ _ => ⟨trivial, rfl⟩)
  | time => exact bounds_atom h bounds_decodeInt64 (fun _ => rfl) (fun _ _ => ⟨trivial, rfl⟩)
  | timestamp => exact bounds_atom h bounds_decodeInt64 (fun _ => rfl) (fun _ _ => ⟨trivial, rfl⟩)
  | array =>
    have hjson : ∀ vs : List Value, (array vs).json = tagged .array (.array (vs.map json)) :=
      fun vs => by rw [json, listJson_eq_map]
    exact bounds_list h ih (fun _ => isReadable_array) hjson
  | map =>
    have hjson : ∀ es : List (Value × Value),
        (map es).json = tagged .map (.array (es.map fun e => .array [e.1.json, e.2.json])) :=
      fun es => by rw [json, entriesJson_eq_map]
    exact bounds_list h (bounds_decodePair ih ih) (fun _ => isReadable_map) hjson
  | struct =>
    have hjson : ∀ fs : List (String × Value),
        (struct fs).json = tagged .struct (.array (fs.map fun f => .array [.text f.1, f.2.json])) :=
      fun fs => by rw [json, fieldsJson_eq_map]
    exact bounds_list h (bounds_decodePair bounds_decodeString ih) (fun _ => isReadable_struct)
      hjson

/-- **What is known of a value that was read**: a text can give it, and its brackets are no more
than those that were read. -/
theorem bounds_decodeFuel (fuel : Nat) : Decoder.Bounds (decodeFuel fuel) json IsReadable := by
  induction fuel with
  | zero =>
    intro depth j v h
    rcases decodeFuel_eq_ok h with hnull | ⟨f, d, name, i, kind, hf, -⟩
    · exact bounds_decodeNull depth j v hnull
    · exact nomatch hf
  | succ fuel ih =>
    intro depth j v h
    rcases decodeFuel_eq_ok h with hnull | ⟨f, d, name, i, kind, hf, rfl, rfl, hkind⟩
    · exact bounds_decodeNull depth j v hnull
    · cases hf
      obtain ⟨hread, hle, hd⟩ := bounds_decodeAs ih hkind
      have hdepth : (Json.object [(name, i)]).depth = i.depth + 1 := by
        rw [Json.depth, Json.fieldsDepth, Json.fieldsDepth, Nat.max_zero]
      rw [hdepth]
      exact ⟨hread, hle, Nat.succ_le_succ hd⟩

/-! ## What is written is read back -/

variable {fuel depth : Nat}

/-- A value is read back if what is behind the name of its kind is. -/
theorem decodeFuel_of_decodeAs {v : Value} {kind : BaseType} {j : Json} {p : Value → Prop}
    (hjson : v.json = tagged kind j)
    (hdepth : v.json.depth ≤ depth) (hfuel : depth ≤ fuel)
    (h : ∀ d f, j.depth ≤ d → d ≤ f → ∃ w, decodeAs f kind d j = .ok w ∧ p w) :
    ∃ w, decodeFuel fuel depth v.json = .ok w ∧ p w := by
  rw [hjson, depth_tagged] at hdepth
  obtain ⟨d, rfl⟩ := Nat.exists_eq_add_one_of_ne_zero (by omega : depth ≠ 0)
  obtain ⟨f, rfl⟩ := Nat.exists_eq_add_one_of_ne_zero (by omega : fuel ≠ 0)
  rw [hjson, decodeFuel_tagged]
  exact h d f (by omega) (by omega)

theorem decodeDecimal_text (depth : Nat) (s : String) :
    decodeDecimal depth (.text s) = Json.orRefuse (Decimal.ofText? s) := by
  cases depth <;> rfl

mutual

/-- **A written value is read**, if it does not nest too deep, and it is read back if its doubles
are. -/
theorem decodeFuel_json : ∀ {v : Value} {fuel depth : Nat}, v.IsReadable →
    v.json.depth ≤ depth → depth ≤ fuel →
      ∃ w, decodeFuel fuel depth v.json = .ok w ∧ (v.DoublesReadBack → w.equal v = true)
  | null, fuel, depth, _, _, _ => by
    refine ⟨null, ?_, fun _ => by rw [equal]⟩
    cases fuel <;> cases depth <;> rfl
  | boolean b, fuel, depth, _, hd, hf =>
    decodeFuel_of_decodeAs rfl hd hf fun _ _ _ _ => ⟨boolean b, rfl, by simp [equal]⟩
  | integer i, fuel, depth, _, hd, hf =>
    decodeFuel_of_decodeAs rfl hd hf fun _ _ _ _ =>
      ⟨integer i, congrArg (Except.map integer) (Json.decodeInt32_int i), by simp [equal]⟩
  | bigint i, fuel, depth, _, hd, hf =>
    decodeFuel_of_decodeAs rfl hd hf fun _ _ _ _ =>
      ⟨bigint i, congrArg (Except.map bigint) (Json.decodeInt64_int i), by simp [equal]⟩
  | decimal d, fuel, depth, h, hd, hf =>
    decodeFuel_of_decodeAs rfl hd hf fun _ _ _ _ => by
      obtain ⟨d', hread, heq⟩ := Decimal.ofText?_text (h (decimal d) (List.mem_cons_self ..))
      exact ⟨decimal d', congrArg (Except.map decimal)
        ((decodeDecimal_text _ _).trans (Json.orRefuse_eq_ok_iff.2 hread)), fun _ => by rwa [equal]⟩
  | double d, fuel, depth, h, hd, hf => by
    have hfinite : d.isFinite = true := h (double d) (List.mem_cons_self ..)
    obtain ⟨d', hread⟩ := Numeral.exists_double?_ofDouble hfinite
    refine decodeFuel_of_decodeAs (by rw [json, if_pos hfinite]) hd hf fun _ _ _ _ => ?_
    refine ⟨double d', congrArg (Except.map double) (Json.orRefuse_eq_ok_iff.2 hread),
      fun hback => ?_⟩
    obtain rfl : d = d' := Option.some.inj ((hback d (List.mem_cons_self ..)).symm.trans hread)
    rw [equal]
    exact Double.equal_self_of_isFinite hfinite
  | string s, fuel, depth, _, hd, hf =>
    decodeFuel_of_decodeAs rfl hd hf fun _ _ _ _ => ⟨string s, rfl, by simp [equal]⟩
  | bytes bs, fuel, depth, _, hd, hf =>
    decodeFuel_of_decodeAs rfl hd hf fun d _ hd _ => by
      have hread := (Json.readsBack_list fun b (_ : b ∈ bs) => Json.readsBack_uint8 b).eq_ok d hd
        (Nat.le_refl d)
      exact ⟨bytes bs, congrArg (Except.map bytes) hread, by simp [equal]⟩
  | date i, fuel, depth, _, hd, hf =>
    decodeFuel_of_decodeAs rfl hd hf fun _ _ _ _ =>
      ⟨date i, congrArg (Except.map date) (Json.decodeInt32_int i), by simp [equal]⟩
  | time i, fuel, depth, _, hd, hf =>
    decodeFuel_of_decodeAs rfl hd hf fun _ _ _ _ =>
      ⟨time i, congrArg (Except.map time) (Json.decodeInt64_int i), by simp [equal]⟩
  | timestamp i, fuel, depth, _, hd, hf =>
    decodeFuel_of_decodeAs rfl hd hf fun _ _ _ _ =>
      ⟨timestamp i, congrArg (Except.map timestamp) (Json.decodeInt64_int i), by simp [equal]⟩
  | array items, fuel, depth, h, hd, hf =>
    decodeFuel_of_decodeAs rfl hd hf fun d f hd hf => by
      obtain ⟨c, rfl, hc⟩ := Json.depth_array_le_iff.1 hd
      obtain ⟨ws, hws, heq⟩ := forall₂_listJson h hc (by omega : c ≤ f)
      exact ⟨array ws, congrArg (Except.map array)
        (Json.decodeList_eq_ok_iff.2 ⟨c, _, rfl, rfl, hws⟩), fun hback => by
          rw [equal]
          exact heq hback⟩
  | map entries, fuel, depth, h, hd, hf =>
    decodeFuel_of_decodeAs rfl hd hf fun d f hd hf => by
      obtain ⟨c, rfl, hc⟩ := Json.depth_array_le_iff.1 hd
      obtain ⟨ws, hws, heq⟩ := forall₂_entriesJson h hc (by omega : c ≤ f)
      exact ⟨map ws, congrArg (Except.map map)
        (Json.decodeList_eq_ok_iff.2 ⟨c, _, rfl, rfl, hws⟩), fun hback => by
          rw [equal]
          exact heq hback⟩
  | struct fields, fuel, depth, h, hd, hf =>
    decodeFuel_of_decodeAs rfl hd hf fun d f hd hf => by
      obtain ⟨c, rfl, hc⟩ := Json.depth_array_le_iff.1 hd
      obtain ⟨ws, hws, heq⟩ := forall₂_fieldsJson h hc (by omega : c ≤ f)
      exact ⟨struct ws, congrArg (Except.map struct)
        (Json.decodeList_eq_ok_iff.2 ⟨c, _, rfl, rfl, hws⟩), fun hback => by
          rw [equal]
          exact heq hback⟩

theorem forall₂_listJson : ∀ {vs : List Value} {fuel depth : Nat},
    (∀ a ∈ listAtoms vs, a.IsReadableAtom) → (∀ j ∈ listJson vs, j.depth ≤ depth) → depth ≤ fuel →
      ∃ ws, List.Forall₂ (fun j w => decodeFuel fuel depth j = .ok w) (listJson vs) ws ∧
        ((∀ d, double d ∈ listAtoms vs → d.ReadsBack) → listEqual ws vs = true)
  | [], fuel, depth, _, _, _ => ⟨[], .nil, fun _ => by rw [listEqual]⟩
  | v :: vs, fuel, depth, h, hd, hf => by
    rw [listAtoms, List.forall_mem_append] at h
    rw [listJson, List.forall_mem_cons] at hd
    obtain ⟨w, hw, heq⟩ := decodeFuel_json h.1 hd.1 hf
    obtain ⟨ws, hws, heqs⟩ := forall₂_listJson h.2 hd.2 hf
    refine ⟨w :: ws, .cons hw hws, fun hback => ?_⟩
    have hv := heq fun d hd => hback d (List.mem_append_left _ hd)
    have hvs := heqs fun d hd => hback d (List.mem_append_right _ hd)
    rw [listEqual, hv, hvs]
    rfl

theorem forall₂_entriesJson : ∀ {es : List (Value × Value)} {fuel depth : Nat},
    (∀ a ∈ entriesAtoms es, a.IsReadableAtom) → (∀ j ∈ entriesJson es, j.depth ≤ depth) →
      depth ≤ fuel →
        ∃ ws, List.Forall₂ (fun j w =>
            Json.decodePair (decodeFuel fuel) (decodeFuel fuel) depth j = .ok w)
          (entriesJson es) ws ∧
          ((∀ d, double d ∈ entriesAtoms es → d.ReadsBack) → entriesEqual ws es = true)
  | [], fuel, depth, _, _, _ => ⟨[], .nil, fun _ => by rw [entriesEqual]⟩
  | (k, v) :: es, fuel, depth, h, hd, hf => by
    rw [entriesAtoms, List.forall_mem_append, List.forall_mem_append] at h
    rw [entriesJson, List.forall_mem_cons] at hd
    obtain ⟨c, hc, hitems⟩ := Json.depth_array_le_iff.1 hd.1
    obtain ⟨k', hk, heqk⟩ :=
      decodeFuel_json h.1.1 (hitems _ (List.mem_cons_self ..)) (by omega : c ≤ fuel)
    obtain ⟨v', hv, heqv⟩ := decodeFuel_json h.1.2
      (hitems _ (List.mem_cons_of_mem _ (List.mem_cons_self ..))) (by omega : c ≤ fuel)
    obtain ⟨ws, hws, heqs⟩ := forall₂_entriesJson h.2 hd.2 hf
    refine ⟨(k', v') :: ws, .cons (Json.decodePair_eq_ok_iff.2 ⟨c, _, _, hc, rfl, hk, hv⟩) hws,
      fun hback => ?_⟩
    have hkey := heqk fun d hd => hback d (List.mem_append_left _ (List.mem_append_left _ hd))
    have hvalue := heqv fun d hd => hback d (List.mem_append_left _ (List.mem_append_right _ hd))
    have hes := heqs fun d hd => hback d (List.mem_append_right _ hd)
    rw [entriesEqual, hkey, hvalue, hes]
    rfl

theorem forall₂_fieldsJson : ∀ {fs : List (String × Value)} {fuel depth : Nat},
    (∀ a ∈ fieldsAtoms fs, a.IsReadableAtom) → (∀ j ∈ fieldsJson fs, j.depth ≤ depth) →
      depth ≤ fuel →
        ∃ ws, List.Forall₂ (fun j w =>
            Json.decodePair Json.decodeString (decodeFuel fuel) depth j = .ok w)
          (fieldsJson fs) ws ∧
          ((∀ d, double d ∈ fieldsAtoms fs → d.ReadsBack) → fieldsEqual ws fs = true)
  | [], fuel, depth, _, _, _ => ⟨[], .nil, fun _ => by rw [fieldsEqual]⟩
  | (n, v) :: fs, fuel, depth, h, hd, hf => by
    rw [fieldsAtoms, List.forall_mem_append] at h
    rw [fieldsJson, List.forall_mem_cons] at hd
    obtain ⟨c, hc, hitems⟩ := Json.depth_array_le_iff.1 hd.1
    obtain ⟨v', hv, heqv⟩ := decodeFuel_json h.1
      (hitems _ (List.mem_cons_of_mem _ (List.mem_cons_self ..))) (by omega : c ≤ fuel)
    obtain ⟨ws, hws, heqs⟩ := forall₂_fieldsJson h.2 hd.2 hf
    refine ⟨(n, v') :: ws, .cons (Json.decodePair_eq_ok_iff.2 ⟨c, _, _, hc, rfl, rfl, hv⟩) hws,
      fun hback => ?_⟩
    have hvalue := heqv fun d hd => hback d (List.mem_append_left _ hd)
    have hfs := heqs fun d hd => hback d (List.mem_append_right _ hd)
    rw [fieldsEqual, hvalue, hfs]
    simp

end

/-- **A written value is read if and only if it does not nest too deep**, and then as an equal one
if its doubles are read back. -/
theorem decode_json {v : Value} {depth : Nat} (hread : v.IsReadable) :
    (v.json.depth ≤ depth → ∃ w, decode depth v.json = .ok w) ∧
      ∀ w, decode depth v.json = .ok w →
        v.json.depth ≤ depth ∧ (v.DoublesReadBack → w.equal v = true) := by
  refine ⟨fun hd => ?_, fun w hw => ?_⟩
  · obtain ⟨w, hw, -⟩ := decodeFuel_json hread hd (Nat.le_refl depth)
    exact ⟨w, hw⟩
  · have hd : v.json.depth ≤ depth := (bounds_decodeFuel depth depth v.json w hw).2.2
    obtain ⟨w', hw', heq⟩ := decodeFuel_json hread hd (Nat.le_refl depth)
    rw [decode, hw'] at hw
    cases hw
    exact ⟨hd, heq⟩

end Value
end StreamTables
