import StreamTables.Proofs.Codec.RoundTrip

/-!
# The codecs that there are

Codecs of keys and of rows are asked for in the same way: by a format, a number of columns, features
and a step of the plan.  So what is known of one kind is known of the other.

## What is here

* `CodecRequest.fields`, `format`, `features`, `path`: what a codec is asked for by.
* `CodecRequest.exists_codec_iff`, `codec_eq_error_iff`: there is a codec of JSON, and no other.
* `CodecRequests.codecs_eq_ok_iff`, `exists_codecs_iff`: the codecs of keys and rows together.
* `CodecRequests.codecs_eq_error_of_key`, `codecs_eq_error_of_row`: the format that is to blame.
* `Codec.decode_encode_iff`: the payload of cells is read back if it does not nest too deep, and
  only then.
* `CodecRequest.exists_codec`: what a codec that was asked for does.
-/

set_option autoImplicit false

namespace StreamTables

namespace Codec

variable {c : Codec} {format : String} {path : PlanPath} {width : Nat} {features : Features}
  {e : Error} {cells : List Value} {payload : ByteArray}

/-- **There is a codec of JSON.** -/
theorem ofFormat_eq_ok_iff :
    ofFormat format path width features = .ok c ↔
      format = jsonFormat ∧ c = ⟨path.operatorName, width,
        width = 1 && features.has .unwrapSingles && !features.has .wrapSingles⟩ := by
  rw [ofFormat]
  split
  · next h => exact ⟨fun hc => ⟨h, (Except.ok.inj hc).symm⟩, fun hc => congrArg Except.ok hc.2.symm⟩
  · next h => exact ⟨(nomatch ·), fun hc => absurd hc.1 h⟩

theorem isProper_of_ofFormat (h : ofFormat format path width features = .ok c) : c.IsProper := by
  obtain ⟨-, rfl⟩ := ofFormat_eq_ok_iff.1 h
  intro hbare
  simp only [Bool.and_eq_true, decide_eq_true_eq] at hbare
  exact hbare.1.1

/-- **There is no other.** -/
theorem ofFormat_eq_error_iff :
    ofFormat format path width features = .error e ↔
      format ≠ jsonFormat ∧ e = .unsupportedFormat format := by
  rw [ofFormat]
  split
  · next h => exact ⟨(nomatch ·), fun he => absurd h he.1⟩
  · next h =>
    exact ⟨fun he => ⟨h, (Except.error.inj he).symm⟩, fun he => congrArg Except.error he.2.symm⟩

theorem encode_eq_error (h : cells.length ≠ c.width) :
    c.encode cells = .error (.widthMismatch c.context c.width cells.length) := by
  rw [encode, checkWidth, if_neg h]
  rfl

theorem payloadDepth_of_encode (hc : c.IsProper) (h : c.encode cells = .ok payload) :
    payloadDepth payload = (c.tree cells).depth := by
  obtain ⟨hlen, rfl⟩ := encode_eq_ok_iff.1 h
  rw [payloadDepth, fromUTF8?_toUTF8]
  dsimp only
  rw [Document.ofText_render (isWritten_tree hc hlen)]

/-- **The payload of cells is read back if it does not nest too deep, and only then.** -/
theorem decode_encode_iff (hc : c.IsProper) (henc : c.encode cells = .ok payload)
    (hread : Row.IsReadable cells) (hback : Row.DoublesReadBack cells) :
    (∃ cells', c.decode payload = .ok cells' ∧ Value.listEqual cells' cells = true) ↔
      payloadDepth payload ≤ Decoder.maxDepth := by
  rw [payloadDepth_of_encode hc henc]
  constructor
  · rintro ⟨cells', hdec, -⟩
    obtain ⟨hlen, rfl⟩ := encode_eq_ok_iff.1 henc
    exact (bounds_decodeTree c _ _ _ ((decode_toUTF8 hc hlen).1 hdec).2).2.2
  · exact decode_encode hc henc hread hback

end Codec

namespace CodecRequest

variable {r : CodecRequest} {c : Codec} {e : Error}

/-- The name of the format. -/
def format : CodecRequest → String
  | key format _ _ => format.format
  | row format _ _ => format

/-- The fields whose cells are to be written. -/
def fields : CodecRequest → List Field
  | key _ s _ => s.schema.key
  | row _ s _ => s.schema.value

/-- The features of the payloads. -/
def features : CodecRequest → Features
  | key _ s _ => s.keyFeatures
  | row _ s _ => s.valueFeatures

/-- The step of the plan. -/
def path : CodecRequest → PlanPath
  | key _ _ path => path
  | row _ _ path => path

theorem codec_eq (r : CodecRequest) :
    r.codec = Codec.ofFormat r.format r.path r.fields.length r.features := by
  cases r <;> rfl

theorem codec_eq_error_iff :
    r.codec = .error e ↔ r.format ≠ Codec.jsonFormat ∧ e = .unsupportedFormat r.format := by
  rw [codec_eq, Codec.ofFormat_eq_error_iff]

theorem exists_codec_iff : (∃ c, r.codec = .ok c) ↔ r.format = Codec.jsonFormat := by
  rw [codec_eq]
  exact ⟨fun ⟨_, hc⟩ => (Codec.ofFormat_eq_ok_iff.1 hc).1,
    fun h => ⟨_, Codec.ofFormat_eq_ok_iff.2 ⟨h, rfl⟩⟩⟩

/-- What is known of a codec that there is. -/
theorem of_codec (h : r.codec = .ok c) :
    c.context = r.path.operatorName ∧ c.width = r.fields.length ∧ c.IsProper := by
  rw [codec_eq] at h
  have hproper : c.IsProper := Codec.isProper_of_ofFormat h
  obtain ⟨-, rfl⟩ := Codec.ofFormat_eq_ok_iff.1 h
  exact ⟨rfl, rfl, hproper⟩

/-- **What a codec that is asked for does**, whatever the schema, the features and the step are.  Of
cells that a text can give, and whose doubles are the same after writing and reading, it makes a
payload, and reads equal cells from it unless it nests too deep.  It neither writes nor reads any
number of cells but that of the columns. -/
theorem exists_codec (h : r.format = Codec.jsonFormat) :
    ∃ c, r.codec = .ok c ∧
      (∀ cells, cells.length = r.fields.length → Row.IsReadable cells → Row.DoublesReadBack cells →
        ∃ payload, c.encode cells = .ok payload ∧
          ((∃ cells', c.decode payload = .ok cells' ∧ Value.listEqual cells' cells = true) ↔
            payloadDepth payload ≤ Decoder.maxDepth)) ∧
      (∀ cells, cells.length ≠ r.fields.length →
        ∃ e, c.encode cells = .error e ∧ e.code = "STREAM_003" ∧
          e = .widthMismatch r.path.operatorName r.fields.length cells.length) ∧
      ∀ payload cells, c.decode payload = .ok cells → cells.length = r.fields.length := by
  obtain ⟨c, hc⟩ := exists_codec_iff.2 h
  obtain ⟨hcontext, hwidth, hproper⟩ := of_codec hc
  rw [← hwidth, ← hcontext]
  refine ⟨c, hc, fun cells hlen hread hback => ?_, fun cells hlen => ?_, fun _ _ hdec => ?_⟩
  · have henc : c.encode cells = .ok (c.tree cells).render.toUTF8 :=
      Codec.encode_eq_ok_iff.2 ⟨hlen, rfl⟩
    exact ⟨_, henc, Codec.decode_encode_iff hproper henc hread hback⟩
  · exact ⟨_, Codec.encode_eq_error hlen, rfl, rfl⟩
  · exact (Codec.decode_eq_ok_iff.1 hdec).1

/-- Rows of one column, which are to be written alone. -/
def orders : CodecRequest :=
  .row "JSON"
    ⟨⟨[⟨"NUMBER", .primitive .integer⟩], [⟨"ORDER", .primitive .string⟩], by decide, by decide⟩,
      ⟨false, false⟩, ⟨true, false⟩⟩ ⟨["Orders", "Source"]⟩

/-- An order: a struct of a text with an escape in it, decimals, and a price for each size. -/
def order : Value :=
  .struct [("note", .string "a \"gift\"\n → Zoë"), ("weights", .array [.decimal ⟨1500, 2⟩, .null]),
    ("prices", .map [(.bytes [0, 255], .double ⟨0x4008000000000000⟩)])]

/-- An order is read back, and two of them cannot be written. -/
theorem exists_codec_orders :
    ∃ c payload cells, orders.codec = .ok c ∧ c.encode [order] = .ok payload ∧
      c.decode payload = .ok cells ∧ Value.listEqual cells [order] = true ∧
      c.encode [order, order] = .error (.widthMismatch "Orders-Source" 1 2) := by
  obtain ⟨c, hc, hwrite, hother, -⟩ := exists_codec (r := orders) rfl
  obtain ⟨payload, henc, hiff⟩ := hwrite [order] rfl (by decide +kernel) (by decide +kernel)
  have hdepth : payloadDepth payload ≤ Decoder.maxDepth := by
    rw [Codec.payloadDepth_of_encode (of_codec hc).2.2 henc]
    exact Nat.le_trans (Codec.depth_tree_le (n := 9) (by decide +kernel)) (by decide)
  obtain ⟨cells, hdec, hequal⟩ := hiff.2 hdepth
  obtain ⟨_, htwo, -, rfl⟩ := hother [order, order] (by decide)
  exact ⟨c, payload, cells, hc, henc, hdec, hequal, htwo⟩

end CodecRequest

namespace CodecRequests

variable {r : CodecRequests} {cs : Codecs}

theorem codecs_eq_ok_iff :
    r.codecs = .ok cs ↔ r.key.codec = .ok cs.key ∧ r.row.codec = .ok cs.row := by
  constructor
  · intro h
    obtain ⟨key, hkey, h⟩ := Except.bind_eq_ok_iff.1 h
    obtain ⟨row, hrow, h⟩ := Except.bind_eq_ok_iff.1 h
    cases h
    exact ⟨hkey, hrow⟩
  · rintro ⟨hkey, hrow⟩
    rw [codecs, hkey, hrow]
    rfl

theorem exists_codecs_iff :
    (∃ cs, r.codecs = .ok cs) ↔
      r.key.format = Codec.jsonFormat ∧ r.row.format = Codec.jsonFormat := by
  rw [← CodecRequest.exists_codec_iff, ← CodecRequest.exists_codec_iff]
  constructor
  · rintro ⟨cs, h⟩
    exact (codecs_eq_ok_iff.1 h).imp (fun h => ⟨_, h⟩) fun h => ⟨_, h⟩
  · rintro ⟨⟨key, hkey⟩, row, hrow⟩
    exact ⟨⟨key, row⟩, codecs_eq_ok_iff.2 ⟨hkey, hrow⟩⟩

/-- If there are no codecs, a format is to blame. -/
theorem exists_of_codecs_eq_error {e : Error} (h : r.codecs = .error e) :
    ∃ format, e = .unsupportedFormat format := by
  rcases Except.bind_eq_error_iff.1 h with h | ⟨_, -, h⟩
  · exact ⟨_, (CodecRequest.codec_eq_error_iff.1 h).2⟩
  rcases Except.bind_eq_error_iff.1 h with h | ⟨_, -, h⟩
  · exact ⟨_, (CodecRequest.codec_eq_error_iff.1 h).2⟩
  · exact nomatch h

/-- **A wrong format of the keys is reported**, whatever that of the rows is. -/
theorem codecs_eq_error_of_key (h : r.key.format ≠ Codec.jsonFormat) :
    r.codecs = .error (.unsupportedFormat r.key.format) := by
  rw [codecs, CodecRequest.codec_eq_error_iff.2 ⟨h, rfl⟩]
  rfl

theorem codecs_eq_error_of_row (hkey : r.key.format = Codec.jsonFormat)
    (hrow : r.row.format ≠ Codec.jsonFormat) :
    r.codecs = .error (.unsupportedFormat r.row.format) := by
  obtain ⟨key, hkey⟩ := CodecRequest.exists_codec_iff.2 hkey
  rw [codecs, hkey, CodecRequest.codec_eq_error_iff.2 ⟨hrow, rfl⟩]
  rfl

end CodecRequests
end StreamTables
