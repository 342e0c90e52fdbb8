import StreamTables.Codec.Payload
import StreamTables.Proofs.Value.RoundTrip

/-!
# Payloads are read back

## What is here

* `Codec.IsProper`: only a single cell stands alone.  The codecs of formats are like that.
* `Row.IsReadable`, `Row.DoublesReadBack`: rows that a text can give, and whose doubles are the same
  after writing and reading.
* `Codec.bounds_decodeTree`: what is known of cells that were read.
* `Codec.exists_decode_toUTF8_iff`: the payload of cells is read unless it nests too deep.
* `Codec.decode_encode`: and it is read back if its doubles are.
* `Codec.Reads`, `Codec.decode_eq_error`: why a payload is refused.
* `payloadDepth`: how many brackets a payload nests.
-/

set_option autoImplicit false

namespace StreamTables

/-! ## Rows, cell by cell -/

namespace Row

/-- Whether a text can give all cells of a row. -/
def IsReadable (row : Row) : Prop := ∀ v ∈ row, v.IsReadable

instance (row : Row) : Decidable (IsReadable row) :=
  inferInstanceAs (Decidable (∀ v ∈ row, v.IsReadable))

/-- Whether the doubles of a row are the same after writing and reading. -/
def DoublesReadBack (row : Row) : Prop := ∀ v ∈ row, v.DoublesReadBack

instance (row : Row) : Decidable (DoublesReadBack row) :=
  inferInstanceAs (Decidable (∀ v ∈ row, v.DoublesReadBack))

theorem listEqual_refl {row : Row} (h : IsReadable row) : Value.listEqual row row = true :=
  Value.listEqual_iff.2 (List.forall₂_same.2 fun v hv => Value.equal_refl (h v hv))

end Row

/-- How many brackets the text of a payload nests, if it is one. -/
def payloadDepth (payload : ByteArray) : Nat :=
  match String.fromUTF8? payload with
  | some s => (Document.ofText s).tree.depth
  | none => 0

theorem fromUTF8?_toUTF8 (s : String) : String.fromUTF8? s.toUTF8 = some s := by
  rw [String.toUTF8_eq_toByteArray, String.fromUTF8?, dif_pos s.isValidUTF8]
  rfl

namespace Codec

variable {c : Codec} {cells : List Value} {payload : ByteArray} {depth : Nat}

/-- Only a single cell stands alone. -/
def IsProper (c : Codec) : Prop := c.bare = true → c.width = 1

theorem encode_eq_ok_iff :
    c.encode cells = .ok payload ↔
      cells.length = c.width ∧ payload = (c.tree cells).render.toUTF8 := by
  rw [encode, checkWidth]
  split
  · next hlen =>
    exact ⟨fun h => ⟨hlen, (Except.ok.inj h).symm⟩, fun h => congrArg Except.ok h.2.symm⟩
  · next hlen => exact ⟨(nomatch ·), fun h => absurd h.1 hlen⟩

theorem tree_of_bare (h : c.bare = true) (v : Value) : c.tree [v] = v.json := by
  unfold tree
  rw [h]

theorem tree_of_not_bare (h : c.bare = false) (cells : List Value) :
    c.tree cells = Row.json cells := by
  unfold tree
  rw [h]

/-- The only cell of a codec that writes single cells alone. -/
theorem exists_cell (hc : c.IsProper) (h : c.bare = true) (hlen : cells.length = c.width) :
    ∃ v, cells = [v] :=
  List.length_eq_one_iff.1 (hlen.trans (hc h))

/-- **What is known of cells that were read.** -/
theorem bounds_decodeTree (c : Codec) : Decoder.Bounds c.decodeTree c.tree Row.IsReadable := by
  intro depth j cells h
  rw [decodeTree] at h
  cases hbare : c.bare with
  | true =>
    rw [hbare, if_pos rfl] at h
    obtain ⟨v, hv, rfl⟩ := Except.map_eq_ok_iff.1 h
    obtain ⟨hread, hle, hj⟩ := Value.bounds_decodeFuel depth depth j v hv
    refine ⟨fun w hw => ?_, ?_, hj⟩
    · rw [List.mem_singleton.1 hw]
      exact hread
    · rwa [tree_of_bare hbare]
  | false =>
    rw [hbare, if_neg Bool.false_ne_true] at h
    have hbounds : Decoder.Bounds Value.decode Value.json Value.IsReadable :=
      fun depth => Value.bounds_decodeFuel depth depth
    obtain ⟨hread, hle, hj⟩ := Value.bounds_decodeList hbounds depth j cells h
    refine ⟨hread, ?_, hj⟩
    rwa [tree_of_not_bare hbare, Row.json, Value.listJson_eq_map]

/-! ## Written cells are read back -/

theorem isWritten_tree (hc : c.IsProper) (hlen : cells.length = c.width) :
    (c.tree cells).IsWritten := by
  cases h : c.bare with
  | true =>
    obtain ⟨v, rfl⟩ := exists_cell hc h hlen
    rw [tree_of_bare h]
    exact v.isWritten_json
  | false =>
    rw [tree_of_not_bare h]
    exact Value.itemsWritten_listJson cells

/-- Cells are read if they do not nest too deep. -/
theorem exists_decodeTree (hc : c.IsProper) (hlen : cells.length = c.width)
    (hread : Row.IsReadable cells) (hdepth : (c.tree cells).depth ≤ depth) :
    ∃ cells', c.decodeTree depth (c.tree cells) = .ok cells' := by
  rw [decodeTree]
  cases h : c.bare with
  | true =>
    obtain ⟨v, rfl⟩ := exists_cell hc h hlen
    rw [tree_of_bare h] at hdepth ⊢
    obtain ⟨w, hw⟩ := (Value.decode_json (hread v (List.mem_cons_self ..))).1 hdepth
    exact ⟨[w], by rw [if_pos rfl, hw]; rfl⟩
  | false =>
    rw [tree_of_not_bare h] at hdepth ⊢
    have hatoms : ∀ a ∈ Value.listAtoms cells, a.IsReadableAtom := by
      intro a ha
      obtain ⟨v, hv, ha⟩ := Value.mem_listAtoms.1 ha
      exact hread v hv a ha
    obtain ⟨d, rfl, hd⟩ := Json.depth_array_le_iff.1 hdepth
    obtain ⟨ws, hws, -⟩ := Value.forall₂_listJson hatoms hd (Nat.le_refl d)
    refine ⟨ws, ?_⟩
    rw [if_neg Bool.false_ne_true]
    exact Json.decodeList_eq_ok_iff.2 ⟨d, _, rfl, rfl, hws⟩

/-- What was read back from a tree of cells equals them, cell by cell.  Nothing is known of a cell
with a double that is not the same after writing and reading. -/
theorem forall₂_of_decodeTree (hc : c.IsProper) (hlen : cells.length = c.width)
    (hread : Row.IsReadable cells) {cells' : List Value}
    (h : c.decodeTree depth (c.tree cells) = .ok cells') :
    List.Forall₂ (fun v w => v.DoublesReadBack → w.equal v = true) cells cells' := by
  rw [decodeTree] at h
  cases hbare : c.bare with
  | true =>
    obtain ⟨v, rfl⟩ := exists_cell hc hbare hlen
    rw [hbare, if_pos rfl, tree_of_bare hbare] at h
    obtain ⟨w, hw, rfl⟩ := Except.map_eq_ok_iff.1 h
    exact .cons ((Value.decode_json (hread v (List.mem_cons_self ..))).2 w hw).2 .nil
  | false =>
    rw [hbare, if_neg Bool.false_ne_true, tree_of_not_bare hbare] at h
    obtain ⟨d, js, -, hjs, hall⟩ := Json.decodeList_eq_ok_iff.1 h
    obtain rfl : Value.listJson cells = js := Json.array.inj hjs
    rw [Value.listJson_eq_map, List.forall₂_map_left_iff] at hall
    have hall' := (List.forall₂_and_left _ _).2 ⟨hread, hall⟩
    exact hall'.imp fun v w ⟨hv, hw⟩ => ((Value.decode_json hv).2 w hw).2

theorem decode_eq_ok_iff :
    c.decode payload = .ok cells ↔
      cells.length = c.width ∧
        ∃ s, String.fromUTF8? payload = some s ∧ c.cellsOfText? s = some cells := by
  rw [decode]
  cases hs : (String.fromUTF8? payload).bind c.cellsOfText? with
  | none =>
    refine ⟨(nomatch ·), fun ⟨_, s, hutf, hcells⟩ => ?_⟩
    rw [hutf, Option.bind_some, hcells] at hs
    exact nomatch hs
  | some ws =>
    obtain ⟨s, hutf, hws⟩ := Option.bind_eq_some_iff.1 hs
    dsimp only
    rw [checkWidth]
    split
    · next hlen =>
      constructor
      · intro h
        cases h
        exact ⟨hlen, s, hutf, hws⟩
      · rintro ⟨-, t, ht, hcells⟩
        rw [hutf] at ht
        cases ht
        rw [hws] at hcells
        cases hcells
        rfl
    · next hlen =>
      refine ⟨(nomatch ·), fun ⟨h, t, ht, hcells⟩ => ?_⟩
      rw [hutf] at ht
      cases ht
      rw [hws] at hcells
      cases hcells
      exact absurd h hlen

/-- Whether a payload is one of these cells, whatever their number is. -/
def Reads (c : Codec) (payload : ByteArray) (cells : List Value) : Prop :=
  ∃ s, String.fromUTF8? payload = some s ∧ c.cellsOfText? s = some cells

/-- **Why a payload is refused**: it is one of no cells, or of the wrong number. -/
theorem decode_eq_error {e : Error} (h : c.decode payload = .error e) :
    (∃ message, e = .payload c.context message) ∨
      ∃ cells, c.Reads payload cells ∧ cells.length ≠ c.width ∧
        e = .widthMismatch c.context c.width cells.length := by
  rw [decode] at h
  split at h
  · next cells hcells =>
    rw [checkWidth] at h
    split at h
    · exact nomatch h
    · next hwidth =>
      cases h
      exact .inr ⟨cells, Option.bind_eq_some_iff.1 hcells, hwidth, rfl⟩
  · cases h
    exact .inl ⟨_, rfl⟩

theorem cellsOfText?_eq_some_iff {s : String} :
    c.cellsOfText? s = some cells ↔
      c.decodeTree Decoder.maxDepth (Document.ofText s).tree = .ok cells ∧
        (Document.ofText s).ended = true := by
  rw [cellsOfText?, Except.toOption_eq_some_iff, Decoder.ofText_eq_ok_iff]

/-- **What is known of the cells of a payload**: a text can give them, and they are written with no
more brackets than were read. -/
theorem of_decode (h : c.decode payload = .ok cells) :
    Row.IsReadable cells ∧ (c.tree cells).depth ≤ payloadDepth payload := by
  obtain ⟨-, s, hs, hcells⟩ := decode_eq_ok_iff.1 h
  obtain ⟨hread, hle, -⟩ := bounds_decodeTree c _ _ _ (cellsOfText?_eq_some_iff.1 hcells).1
  refine ⟨hread, ?_⟩
  rw [payloadDepth, hs]
  exact hle

/-- What was read of a payload is written with no more brackets than a reader looks into. -/
theorem depth_tree_of_decode (h : c.decode payload = .ok cells) :
    (c.tree cells).depth ≤ Decoder.maxDepth := by
  obtain ⟨-, s, -, hcells⟩ := decode_eq_ok_iff.1 h
  obtain ⟨-, hle, hdepth⟩ := bounds_decodeTree c _ _ _ (cellsOfText?_eq_some_iff.1 hcells).1
  exact hle.trans hdepth

/-- The payload of cells is the text of their tree. -/
theorem decode_toUTF8 (hc : c.IsProper) (hlen : cells.length = c.width) {cells' : List Value} :
    c.decode (c.tree cells).render.toUTF8 = .ok cells' ↔
      cells'.length = c.width ∧ c.decodeTree Decoder.maxDepth (c.tree cells) = .ok cells' := by
  have hdoc := Document.ofText_render (isWritten_tree hc hlen)
  rw [decode_eq_ok_iff]
  constructor
  · rintro ⟨hwidth, s, hs, hcells⟩
    rw [fromUTF8?_toUTF8] at hs
    cases hs
    rw [cellsOfText?_eq_some_iff, hdoc] at hcells
    exact ⟨hwidth, hcells.1⟩
  · rintro ⟨hwidth, hcells⟩
    refine ⟨hwidth, _, fromUTF8?_toUTF8 _, ?_⟩
    rw [cellsOfText?_eq_some_iff, hdoc]
    exact ⟨hcells, rfl⟩

/-- **The payload of cells is read if and only if they do not nest too deep.** -/
theorem exists_decode_toUTF8_iff (hc : c.IsProper) (hlen : cells.length = c.width)
    (hread : Row.IsReadable cells) :
    (∃ cells', c.decode (c.tree cells).render.toUTF8 = .ok cells') ↔
      (c.tree cells).depth ≤ Decoder.maxDepth := by
  constructor
  · rintro ⟨cells', h⟩
    exact (bounds_decodeTree c _ _ _ ((decode_toUTF8 hc hlen).1 h).2).2.2
  · intro hdepth
    obtain ⟨cells', hcells⟩ := exists_decodeTree hc hlen hread hdepth
    have hwidth : cells'.length = c.width :=
      (forall₂_of_decodeTree hc hlen hread hcells).length_eq.symm.trans hlen
    exact ⟨cells', (decode_toUTF8 hc hlen).2 ⟨hwidth, hcells⟩⟩

/-- **What was read back from the payload of cells equals them**, cell by cell. -/
theorem forall₂_of_decode_encode (hc : c.IsProper) (henc : c.encode cells = .ok payload)
    (hread : Row.IsReadable cells) {cells' : List Value} (hdec : c.decode payload = .ok cells') :
    List.Forall₂ (fun v w => v.DoublesReadBack → w.equal v = true) cells cells' := by
  obtain ⟨hlen, rfl⟩ := encode_eq_ok_iff.1 henc
  exact forall₂_of_decodeTree hc hlen hread ((decode_toUTF8 hc hlen).1 hdec).2

/-- **The payload of cells is read back** if they do not nest too deep. -/
theorem decode_encode (hc : c.IsProper) (henc : c.encode cells = .ok payload)
    (hread : Row.IsReadable cells) (hback : Row.DoublesReadBack cells)
    (hdepth : (c.tree cells).depth ≤ Decoder.maxDepth) :
    ∃ cells', c.decode payload = .ok cells' ∧ Value.listEqual cells' cells = true := by
  obtain ⟨hlen, rfl⟩ := encode_eq_ok_iff.1 henc
  obtain ⟨cells', hdec⟩ := (exists_decode_toUTF8_iff hc hlen hread).2 hdepth
  refine ⟨cells', hdec, Value.listEqual_iff.2 ?_⟩
  have hall := (List.forall₂_and_left _ _).2 ⟨hback, forall₂_of_decode_encode hc henc hread hdec⟩
  exact (hall.imp fun v w ⟨hv, hw⟩ => hw hv).flip

/-! ## How deep cells nest -/

/-- Cells in a list nest as deep as the deepest of them and the list. -/
theorem depth_tree_iff (h : c.bare = false) {n : Nat} :
    (c.tree cells).depth ≤ n + 1 ↔ ∀ v ∈ cells, v.json.depth ≤ n := by
  rw [tree_of_not_bare h, Row.json, Json.depth_array_le_iff, Value.listJson_eq_map]
  simp

/-- A list around cells takes one more bracket. -/
theorem depth_tree_le {n : Nat} (h : ∀ v ∈ cells, v.json.depth ≤ n) :
    (c.tree cells).depth ≤ n + 1 := by
  unfold tree
  split
  · exact Nat.le_succ_of_le (h _ (List.mem_cons_self ..))
  · refine Json.depth_array_le_iff.2 ⟨n, rfl, fun j hj => ?_⟩
    rw [Value.listJson_eq_map] at hj
    obtain ⟨v, hv, rfl⟩ := List.mem_map.1 hj
    exact h v hv

theorem depth_json_le {v : Value} (hv : v ∈ cells) : v.json.depth ≤ (c.tree cells).depth := by
  have hlist : v.json.depth ≤ (Row.json cells).depth := by
    obtain ⟨m, hm, hall⟩ := Json.depth_array_le_iff.1 (Nat.le_refl (Row.json cells).depth)
    rw [hm]
    refine Nat.le_succ_of_le (hall _ ?_)
    rw [Value.listJson_eq_map]
    exact List.mem_map_of_mem hv
  unfold tree
  split
  · obtain rfl := List.mem_singleton.1 hv
    exact Nat.le_refl _
  · exact hlist

end Codec
end StreamTables
