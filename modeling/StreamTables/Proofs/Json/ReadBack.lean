import StreamTables.Proofs.Json.Decode
import StreamTables.Proofs.Json.RoundTrip

/-!
# What is written is read back

A definition that is kept in JSON is read by a decoder that is put together from others, in the way
the tree is that the definition is written as.  So that it is read back follows part by part, and
this file has one lemma for each way in which decoders are put together.

A decoder looks into so many brackets at most, and the decoders of types are cut off at a depth of
their own.  Hence the two bounds in `Decoder.ReadsBack`: the tree must not nest deeper than the
decoder may look, and the decoder is only asked to look down to a limit.

## What is here

* `Decoder.ReadsBack`: a tree is the same after writing and reading, and makes the value that is
  asked for.
* `Decoder.ReadsBack.ofText_render`: then its text makes that value.
* `Json.readsBack_text` and its like: strings, names, integers, optional values, lists and pairs.
* `Json.Entry`, `Json.readsBack_struct`: structs, one field at a time.
-/

set_option autoImplicit false

namespace StreamTables

/-- A tree is the same after writing and reading, and a decoder that may look as deep as it nests
makes a value of it, if the decoder need not look deeper than to a limit. -/
structure Decoder.ReadsBack {α : Type} (limit : Nat) (decode : Decoder α) (j : Json) (a : α) :
    Prop where
  written : j.IsWritten
  eq_ok : ∀ depth, j.depth ≤ depth → depth ≤ limit → decode depth j = .ok a

/-- **The text of a tree that is read back makes the value**, unless it nests too deep. -/
theorem Decoder.ReadsBack.ofText_render {α : Type} {decode : Decoder α} {j : Json} {a : α}
    (h : decode.ReadsBack maxDepth j a) (hdepth : j.depth ≤ maxDepth) :
    decode.ofText j.render = .ok a := by
  rw [ofText_eq_ok_iff, Document.ofText_render h.written]
  exact ⟨h.eq_ok maxDepth hdepth (Nat.le_refl _), rfl⟩

/-- A value that is made of another one. -/
theorem Decoder.ReadsBack.map {α β : Type} {limit : Nat} {decode : Decoder α} {j : Json} {a : α}
    (h : decode.ReadsBack limit j a) (f : α → β) :
    Decoder.ReadsBack limit (fun depth j => (decode depth j).map f) j (f a) where
  written := h.written
  eq_ok depth hdepth hlimit := congrArg (Except.map f) (h.eq_ok depth hdepth hlimit)

namespace Json

variable {α β σ : Type} {limit : Nat}

/-! ## Parts -/

theorem readsBack_text (s : String) : decodeString.ReadsBack limit (.text s) s where
  written := rfl
  eq_ok _ _ _ := rfl

theorem readsBack_name {ofName? : String → Option α} {name : String} {a : α}
    (h : ofName? name = some a) : (decodeName ofName?).ReadsBack limit (.text name) a where
  written := rfl
  eq_ok depth _ _ := by
    cases depth <;> exact orRefuse_eq_ok_iff.2 h

theorem readsBack_int {low high i : Int} (hl : low ≤ i) (hh : i < high) :
    (decodeInt low high).ReadsBack limit (.int i) i where
  written := Numeral.isLiteral_ofInt i
  eq_ok _ _ _ := decodeInt_int hl hh

theorem readsBack_uint8 (b : UInt8) : decodeUInt8.ReadsBack limit (.int b.toNat) b where
  written := Numeral.isLiteral_ofInt _
  eq_ok _ _ _ := decodeUInt8_int b

theorem readsBack_uint64 (n : UInt64) : decodeUInt64.ReadsBack limit (.int n.toNat) n where
  written := Numeral.isLiteral_ofInt _
  eq_ok _ _ _ := decodeUInt64_int n

theorem readsBack_orNull {value : Decoder α} {tree : α → Json} {o : Option α}
    (h : ∀ a ∈ o, value.ReadsBack limit (tree a) a) (hnull : ∀ a ∈ o, tree a ≠ .null) :
    (decodeOptional value).ReadsBack limit (orNull tree o) o := by
  cases o with
  | none => exact ⟨trivial, fun _ _ _ => rfl⟩
  | some a =>
    refine ⟨(h a rfl).written, fun depth hdepth hlimit => ?_⟩
    have hvalue := (h a rfl).eq_ok depth hdepth hlimit
    rw [orNull, decodeOptional.eq_2 _ _ _ (hnull a rfl), hvalue]
    rfl

theorem readsBack_list {item : Decoder α} {tree : α → Json} {as : List α}
    (h : ∀ a ∈ as, item.ReadsBack limit (tree a) a) :
    (decodeList item).ReadsBack limit (.array (as.map tree)) as where
  written := itemsWritten_map fun a ha => (h a ha).written
  eq_ok depth hdepth hlimit := by
    obtain ⟨d, rfl, hitems⟩ := depth_array_le_iff.1 hdepth
    refine decodeList_eq_ok_iff.2 ⟨d, _, rfl, rfl, ?_⟩
    rw [List.forall₂_map_left_iff, List.forall₂_same]
    exact fun a ha => (h a ha).eq_ok d (hitems _ (List.mem_map_of_mem ha)) (by omega)

theorem readsBack_pair {first : Decoder α} {second : Decoder β} {x y : Json} {a : α} {b : β}
    (hx : first.ReadsBack limit x a) (hy : second.ReadsBack limit y b) :
    (decodePair first second).ReadsBack limit (.array [x, y]) (a, b) where
  written := ⟨hx.written, hy.written, trivial⟩
  eq_ok depth hdepth hlimit := by
    obtain ⟨d, rfl, hitems⟩ := depth_array_le_iff.1 hdepth
    rw [List.forall_mem_cons, List.forall_mem_singleton] at hitems
    exact decodePair_eq_ok_iff.2 ⟨d, x, y, rfl, rfl, hx.eq_ok d hitems.1 (by omega),
      hy.eq_ok d hitems.2 (by omega)⟩

/-! ## Structs -/

/-- A field as it is written, and what reading it does to a draft. -/
structure Entry (σ : Type) where
  name : String
  tree : Json
  set : σ → σ

/-- The field is read back: under its name it does to every draft what it should. -/
structure Entry.ReadsBack (limit : Nat) (field : Nat → σ → String → Json → Except Refusal σ)
    (e : Entry σ) : Prop where
  written : e.tree.IsWritten
  eq_ok : ∀ depth draft, e.tree.depth ≤ depth → depth ≤ limit →
    field depth draft e.name e.tree = .ok (e.set draft)

/-- A field that is read by a decoder, and then set in the draft. -/
theorem Entry.ReadsBack.of_decoder {field : Nat → σ → String → Json → Except Refusal σ}
    {e : Entry σ} {decode : Decoder α} {a : α} (h : decode.ReadsBack limit e.tree a)
    (hfield : ∀ depth draft, ∃ set,
      field depth draft e.name e.tree = decode depth e.tree >>= set ∧ set a = .ok (e.set draft)) :
    e.ReadsBack limit field where
  written := h.written
  eq_ok depth draft hdepth hlimit := by
    obtain ⟨set, hread, hset⟩ := hfield depth draft
    rw [hread]
    exact Except.bind_eq_ok_iff.2 ⟨a, h.eq_ok depth hdepth hlimit, hset⟩

theorem decodeFields_cons {known seen : List String} {field : σ → String → Json → Except Refusal σ}
    {name : String} {j : Json} {rest : List (Literal × Json)} {draft : σ} (hknown : name ∈ known)
    (hseen : name ∉ seen) :
    decodeFields known field seen ((.plain name, j) :: rest) draft
      = field draft name j >>= decodeFields known field (name :: seen) rest := by
  rw [decodeFields]
  change (if known.contains name = true then _ else _) = _
  rw [if_pos (List.contains_iff_mem.2 hknown), if_neg (mt List.contains_iff_mem.1 hseen)]

/-- Fields of different names that are all known are read one after the other. -/
theorem decodeFields_record {known seen : List String}
    {field : σ → String → Json → Except Refusal σ} {es : List (Entry σ)} {draft : σ}
    (hknown : ∀ e ∈ es, e.name ∈ known) (hseen : ∀ e ∈ es, e.name ∉ seen)
    (hnodup : (es.map Entry.name).Nodup)
    (h : ∀ e ∈ es, ∀ draft, field draft e.name e.tree = .ok (e.set draft)) :
    decodeFields known field seen (es.map fun e => (.plain e.name, e.tree)) draft
      = .ok (es.foldl (fun draft e => e.set draft) draft) := by
  induction es generalizing seen draft with
  | nil => rfl
  | cons e es ih =>
    rw [List.forall_mem_cons] at hknown hseen h
    rw [List.map_cons, List.nodup_cons] at hnodup
    -- The name that is added to those seen is that of no later field.
    have hrest : ∀ e' ∈ es, e'.name ∉ e.name :: seen := fun e' he' hmem => by
      rcases List.mem_cons.1 hmem with heq | hmem
      · exact hnodup.1 (heq ▸ List.mem_map_of_mem he')
      · exact hseen.2 e' he' hmem
    rw [List.map_cons, decodeFields_cons hknown.1 hseen.1, h.1]
    exact ih hknown.2 hrest hnodup.2 h.2

/-- **A struct is read back if its fields are.** -/
theorem readsBack_struct {names : List String}
    {field : Nat → σ → String → Json → Except Refusal σ} {empty : σ} {finish : σ → Option α} {a : α}
    (es : List (Entry σ)) (hnames : es.map Entry.name = names) (hnodup : names.Nodup)
    (hplain : ∀ name ∈ names, Literal.plain name = .ofText name)
    (h : ∀ e ∈ es, e.ReadsBack limit field)
    (hfinish : finish (es.foldl (fun draft e => e.set draft) empty) = some a) :
    (decodeStruct names field empty finish).ReadsBack limit
      (.record (es.map fun e => (e.name, e.tree))) a where
  written := by
    refine isWritten_record fun f hf => ?_
    obtain ⟨e, he, rfl⟩ := List.mem_map.1 hf
    exact ⟨hplain _ (hnames ▸ List.mem_map_of_mem he), (h e he).written⟩
  eq_ok depth hdepth hlimit := by
    obtain ⟨d, rfl, hfields⟩ := depth_record_le_iff.1 hdepth
    have hread : decodeFields names (field d) [] (es.map fun e => (.plain e.name, e.tree)) empty
        = .ok (es.foldl (fun draft e => e.set draft) empty) :=
      decodeFields_record (fun e he => hnames ▸ List.mem_map_of_mem he)
        (fun _ _ => List.not_mem_nil) (hnames ▸ hnodup) fun e he draft =>
          (h e he).eq_ok d draft (hfields _ (List.mem_map_of_mem he)) (by omega)
    rw [record, decodeStruct, List.map_map]
    exact Except.bind_eq_ok_iff.2 ⟨_, hread, orRefuse_eq_ok_iff.2 hfinish⟩

end Json
end StreamTables
