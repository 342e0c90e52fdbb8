import StreamTables.Proofs.Codec.RoundTrip
import StreamTables.Proofs.Store.LastWrite
import StreamTables.Table

/-!
# Rows on their way through a store

A table goes on with the row that its store holds, and not with the one that it wrote.  The two are
equal cell by cell, except for doubles that are not the same after writing and reading.

## What is here

* `Value.Restores`, `Row.Restores`: what may come out of a store, or of the place where there is
  none.
* `Codec.payload`: what cells of the right number are written as.
* `Codec.Keeps`: what becomes of a row that is written and read.
* `Store.record`: a store after a row was written or deleted.
* `Store.readBack`: what a store gives back of a row.
* `Store.pass_some`, `Store.pass_none`: what goes into the store, and what comes out.
* `Store.keeps_of_readBack`: what is known of what comes out.
* `Store.exists_readBack`: rows that are not too deep are given back.
-/

set_option autoImplicit false

namespace StreamTables

/-- A cell and what became of it on its way.  If it was stored, the two are equal, but nothing is
said of a cell with a double that is not the same after writing and reading. -/
def Value.Restores (stored : Bool) (c c' : Value) : Prop :=
  if stored then c.DoublesReadBack → c'.equal c = true else c' = c

/-- A row and what became of it, cell by cell. -/
def Row.Restores (stored : Bool) (row row' : Row) : Prop :=
  List.Forall₂ (Value.Restores stored) row row'

theorem Value.Restores.refl {stored : Bool} {c : Value} (h : c.IsReadable) :
    Restores stored c c := by
  cases stored with
  | true => exact fun _ => equal_refl h
  | false => exact rfl

theorem Value.Restores.equal {stored : Bool} {c c' : Value} (h : Restores stored c c')
    (hread : c.IsReadable) (hback : stored = true → c.DoublesReadBack) : c'.equal c = true := by
  cases stored with
  | true => exact h (hback rfl)
  | false =>
    cases h
    exact equal_refl hread

namespace Row.Restores

variable {stored : Bool} {row row' : Row}

theorem refl (h : Row.IsReadable row) : Restores stored row row :=
  List.forall₂_same.2 fun v hv => .refl (h v hv)

/-- What was not stored is the same. -/
theorem eq (h : Restores false row row') : row' = row := by
  have hsame : List.Forall₂ Eq row' row := h.flip
  rwa [List.forall₂_eq_eq_eq] at hsame

/-- If all doubles are the same after writing and reading, so is the row, up to equality. -/
theorem listEqual (h : Restores stored row row') (hread : Row.IsReadable row)
    (hback : stored = true → Row.DoublesReadBack row) : Value.listEqual row' row = true := by
  rw [Value.listEqual_iff]
  have h' := (List.forall₂_and_left _ _).2 ⟨hread, (List.forall₂_and_left _ _).2
    ⟨fun v hv hs => hback hs v hv, h⟩⟩
  exact (h'.imp fun v w ⟨hv, hb, hw⟩ => hw.equal hv hb).flip

end Row.Restores

namespace Codec

/-- What cells of the right number are written as. -/
def payload (c : Codec) (cells : List Value) : ByteArray := (c.tree cells).render.toUTF8

theorem encode_eq {c : Codec} {cells : List Value} (h : cells.length = c.width) :
    c.encode cells = .ok (c.payload cells) :=
  encode_eq_ok_iff.2 ⟨h, rfl⟩

/-- If the payload of cells is refused, it is not for their number. -/
theorem exists_of_decode_payload_eq_error {c : Codec} {cells : List Value} {e : Error}
    (hc : c.IsProper) (hlen : cells.length = c.width) (hread : Row.IsReadable cells)
    (h : c.decode (c.payload cells) = .error e) : ∃ message, e = .payload c.context message := by
  rcases decode_eq_error h with hpayload | ⟨cells', ⟨s, hs, hcells⟩, hwidth, -⟩
  · exact hpayload
  · rw [payload, fromUTF8?_toUTF8] at hs
    cases hs
    rw [cellsOfText?_eq_some_iff, Document.ofText_render (isWritten_tree hc hlen)] at hcells
    have hall := forall₂_of_decodeTree hc hlen hread hcells.1
    exact absurd (hall.length_eq.symm.trans hlen) hwidth

end Codec

/-- What became of a row that was written and read, if it could be read. -/
def Codec.Keeps (c : Codec) (row row' : Row) : Prop :=
  c.decode (c.payload row) = .ok row' ∧ Row.Restores true row row'

/-- Both codecs write no more than a single cell alone. -/
def Codecs.IsProper (cs : Codecs) : Prop := cs.key.IsProper ∧ cs.row.IsProper

namespace Store

variable {s s' : Store} {key : Key} {row : Row} {r held : Option Row}

/-- A store after a row was written or, without a row, deleted. -/
def record (s : Store) (key : Key) (r : Option Row) : Store :=
  { s with entries := s.entries.set (s.codecs.key.payload key) (r.map s.codecs.row.payload) }

theorem record_codecs : (s.record key r).codecs = s.codecs := rfl

/-- A key is looked up by its payload. -/
theorem get_eq (h : key.length = s.codecs.key.width) :
    s.get key = s.read (s.codecs.key.payload key) := by
  rw [get, Codec.encode_eq h]
  rfl

/-- What is held after a write is what was written. -/
theorem put_eq (hkey : key.length = s.codecs.key.width)
    (hrow : ∀ row ∈ r, row.length = s.codecs.row.width) :
    s.put key r = (s.record key r,
      r.mapM fun row => s.codecs.row.decode (s.codecs.row.payload row)) := by
  have hget : (s.record key r).get key = (s.record key r).read (s.codecs.key.payload key) :=
    get_eq hkey
  have hentry : (s.record key r).entries.get? (s.codecs.key.payload key)
      = r.map s.codecs.row.payload := by
    rw [record]
    exact Entries.get?_set.trans (if_pos rfl)
  have hwrite : s.write key r = .ok (s.record key r) := by
    cases r with
    | none => rw [write, Codec.encode_eq hkey]; rfl
    | some row => rw [write, Codec.encode_eq hkey, Codec.encode_eq (hrow row rfl)]; rfl
  rw [put, hwrite]
  refine Prod.ext rfl ?_
  dsimp only
  rw [hget, read, hentry]
  cases r with
  | none => rfl
  | some row =>
    rw [record_codecs]
    cases s.codecs.row.decode (s.codecs.row.payload row) <;> rfl

/-! ## Through a store, or past the place where there is none -/

variable {store : Option Store} {row' : Row}

/-- What a store gives back of a row that was written to it. -/
def readBack (store : Option Store) (row : Row) : Except Error Row :=
  match store with
  | none => .ok row
  | some s => s.codecs.row.decode (s.codecs.row.payload row)

/-- **A row of the right width is written**, and what comes out is what the store gives back. -/
theorem pass_some (hkey : ∀ s ∈ store, key.length = s.codecs.key.width)
    (hrow : ∀ s ∈ store, row.length = s.codecs.row.width) :
    pass store key (some row)
      = (store.map fun s => s.record key (some row), (readBack store row).map some) := by
  cases store with
  | none => rfl
  | some s =>
    rw [pass, put_eq (hkey s rfl) fun r hr => Option.some.inj hr ▸ hrow s rfl]
    rfl

/-- A tombstone erases the key, and comes out as one. -/
theorem pass_none (hkey : ∀ s ∈ store, key.length = s.codecs.key.width) :
    pass store key none = (store.map fun s => s.record key none, .ok none) := by
  cases store with
  | none => rfl
  | some s =>
    rw [pass, put_eq (hkey s rfl) fun r hr => by cases hr]
    rfl

/-- **What a store gives back.** -/
theorem keeps_of_readBack (hproper : ∀ s ∈ store, s.codecs.IsProper)
    (hrow : ∀ s ∈ store, row.length = s.codecs.row.width) (hread : Row.IsReadable row)
    (h : readBack store row = .ok row') :
    Row.Restores store.isSome row row' ∧ ∀ s ∈ store, s.codecs.row.Keeps row row' := by
  cases store with
  | none =>
    cases h
    exact ⟨.refl hread, fun s hs => by cases hs⟩
  | some s =>
    have hkeeps : s.codecs.row.Keeps row row' := ⟨h, Codec.forall₂_of_decode_encode
      (hproper s rfl).2 (Codec.encode_eq (hrow s rfl)) hread h⟩
    refine ⟨hkeeps.2, fun t ht => ?_⟩
    cases ht
    exact hkeeps

/-- **What does not nest too deep is given back.** -/
theorem exists_readBack (hproper : ∀ s ∈ store, s.codecs.IsProper)
    (hrow : ∀ s ∈ store, row.length = s.codecs.row.width) (hread : Row.IsReadable row)
    (hdepth : ∀ v ∈ row, v.json.depth < Decoder.maxDepth) :
    ∃ row', readBack store row = .ok row' := by
  cases store with
  | none => exact ⟨row, rfl⟩
  | some s =>
    refine (Codec.exists_decode_toUTF8_iff (hproper s rfl).2 (hrow s rfl) hread).2 ?_
    exact Codec.depth_tree_le fun v hv => Nat.le_of_lt_succ (hdepth v hv)

end Store
end StreamTables
