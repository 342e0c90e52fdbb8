import StreamTables.Codec.Json
import StreamTables.Proofs.Json.ReadBack

/-!
# Formats are read back

## What is here

* `Features.readsBack_json`, `Window.readsBack_json`, `Formats.readsBack_json`: what is written is
  read back.
-/

set_option autoImplicit false

namespace StreamTables

open Json

variable {limit : Nat}

theorem Feature.ofName?_name (f : Feature) : ofName? f.name = some f := by
  cases f <;> decide

theorem WindowKind.ofName?_name (k : WindowKind) : ofName? k.name = some k := by
  cases k <;> decide

namespace Features

/-- Features are read back: they are written in order, each of them once. -/
theorem readsBack_json (fs : Features) : decode.ReadsBack limit fs.json fs := by
  have h : (decodeList (decodeName Feature.ofName?)).ReadsBack limit fs.json fs.toList :=
    readsBack_list fun f _ => readsBack_name f.ofName?_name
  have hset := h.map ofList
  rwa [ofList_toList] at hset

end Features

namespace Window

theorem readsBack_json (w : Window) : decode.ReadsBack limit w.json w := by
  refine readsBack_struct
    [⟨"type", .text w.kind.name, fun d => { d with kind := some w.kind }⟩,
      ⟨"size", .orNull (fun n : UInt64 => .int n.toNat) w.size,
        fun d => { d with size := w.size }⟩]
    rfl (by decide) (by decide) ?_ rfl
  simp only [List.forall_mem_cons]
  exact ⟨.of_decoder (readsBack_name w.kind.ofName?_name) fun _ _ => ⟨_, rfl, rfl⟩,
    .of_decoder (readsBack_orNull (fun n _ => readsBack_uint64 n) fun _ _ => nofun)
      fun _ _ => ⟨_, rfl, rfl⟩,
    List.forall_mem_nil _⟩

end Window

namespace Formats

theorem readsBack_formatJson (format : String) :
    decodeFormat.ReadsBack limit (formatJson format) format := by
  refine readsBack_struct [⟨"format", .text format, fun _ => some format⟩]
    rfl (by decide) (by decide) ?_ rfl
  simp only [List.forall_mem_cons]
  exact ⟨⟨rfl, fun _ _ _ _ => rfl⟩, List.forall_mem_nil _⟩

theorem readsBack_json (f : Formats) : decode.ReadsBack limit f.json f := by
  refine readsBack_struct
    [⟨"key_format", formatJson f.keyFormat, fun d => { d with keyFormat := some f.keyFormat }⟩,
      ⟨"value_format", formatJson f.valueFormat,
        fun d => { d with valueFormat := some f.valueFormat }⟩,
      ⟨"key_features", f.keyFeatures.json,
        fun d => { d with keyFeatures := some f.keyFeatures }⟩,
      ⟨"value_features", f.valueFeatures.json,
        fun d => { d with valueFeatures := some f.valueFeatures }⟩]
    rfl (by decide) (by decide) ?_ rfl
  simp only [List.forall_mem_cons]
  exact ⟨.of_decoder (readsBack_formatJson f.keyFormat) fun _ _ => ⟨_, rfl, rfl⟩,
    .of_decoder (readsBack_formatJson f.valueFormat) fun _ _ => ⟨_, rfl, rfl⟩,
    .of_decoder f.keyFeatures.readsBack_json fun _ _ => ⟨_, rfl, rfl⟩,
    .of_decoder f.valueFeatures.readsBack_json fun _ _ => ⟨_, rfl, rfl⟩,
    List.forall_mem_nil _⟩

end Formats
end StreamTables
