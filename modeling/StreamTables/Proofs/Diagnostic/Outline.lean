import Mathlib.Data.List.TakeWhile
import StreamTables.Diagnostic.Basic
import StreamTables.Proofs.SqlType.Line
import StreamTables.Proofs.Text.Pieces
import StreamTables.Text.Blank

/-!
# Reports can be read

A report is lines of text.  Whoever reads one tells the findings apart by their headers, so what is
said below a header must not look like one, whatever the texts of the finding are.

## What is here

* `Report.outline`: the headers in a text, each with the lines below it that are not blank.
* `Report.outline_section`: how an outline is put together.
* `Finding.heading`, `Finding.remarks`: what a report says of a finding.
* `Finding.isRemark_append`: what begins with a mark is no header, and not blank.
* `Finding.exists_lines_eq`: below its header a finding shows its remarks.
* `Diagnostic.splitOn_render`: the lines of a report are what the findings say.
* `Diagnostic.outline_render`: the outline of a report is the chain of its findings.

## How it goes

Every remark begins with a mark of its own (an arrow, an equals sign, `help:` or `note:`), so no
text of the user stands at the start of a line, and no line but a header is one.  All this is about
lines: a text that has a line feed itself is cut in two, and its second half begins a line.
-/

set_option autoImplicit false

namespace StreamTables

/-! ## Lines and headers -/

namespace Report

/-- Whether a line has nothing but blanks. -/
def isBlankLine (line : List Char) : Bool := line.all Text.isBlank

/-- Whether a line can be taken for the header of a finding, wherever it starts. -/
def isHeader (line : List Char) : Bool :=
  let start := line.dropWhile Text.isBlank
  "error[".toList.isPrefixOf start || "caused by [".toList.isPrefixOf start

/-- The headers of a report, each with the lines up to the next one that are not blank. -/
def outline : List (List Char) → List (List Char × List (List Char))
  | [] => []
  | line :: lines =>
    if isHeader line then
      (line, (lines.takeWhile fun l => !isHeader l).filter fun l => !isBlankLine l) ::
        outline lines
    else outline lines

variable {line : List Char} {lines rest : List (List Char)}

/-- The outline has all lines that can be taken for headers. -/
theorem map_fst_outline (lines : List (List Char)) :
    (outline lines).map Prod.fst = lines.filter isHeader := by
  induction lines with
  | nil => rfl
  | cons line lines ih =>
    rw [outline]
    by_cases h : isHeader line = true
    · rw [if_pos h, List.filter_cons_of_pos h, List.map_cons, ih]
    · rw [if_neg h, List.filter_cons_of_neg h, ih]

theorem outline_append (h : ∀ l ∈ lines, isHeader l = false) (rest : List (List Char)) :
    outline (lines ++ rest) = outline rest := by
  induction lines with
  | nil => rfl
  | cons line lines ih =>
    obtain ⟨hline, hlines⟩ := List.forall_mem_cons.1 h
    rw [List.cons_append, outline, if_neg (Bool.eq_false_iff.1 hline), ih hlines]

/-- **A section ends where the next one begins.** -/
theorem outline_section (hline : isHeader line = true) (hlines : ∀ l ∈ lines, isHeader l = false)
    (hrest : ∀ l ∈ rest.head?, isHeader l = true) :
    outline (line :: (lines ++ rest))
      = (line, lines.filter fun l => !isBlankLine l) :: outline rest := by
  have htake : rest.takeWhile (fun l => !isHeader l) = [] := by
    cases rest with
    | nil => rfl
    | cons l rest => exact List.takeWhile_cons_of_neg (by simp [hrest l rfl])
  rw [outline, if_pos hline, outline_append hlines,
    List.takeWhile_append_of_pos fun l hl => by simp [hlines l hl], htake, List.append_nil]

end Report

/-! ## Findings -/

namespace Finding

open Report Text

variable {f : Finding} {depth : Nat}

theorem dropWhile_indent (depth : Nat) (text : String) :
    (indent depth ++ text).toList.dropWhile Text.isBlank = text.toList.dropWhile Text.isBlank := by
  rw [String.toList_append, indent, String.toList_ofList]
  exact List.dropWhile_append_of_pos fun c hc => by rw [List.eq_of_mem_replicate hc]; rfl

theorem isLine_indent (depth : Nat) : IsLine (indent depth) := by
  rw [IsLine, indent, String.toList_ofList]
  exact fun h => absurd (List.eq_of_mem_replicate h) (by decide)

theorem isHeader_indent (depth : Nat) (text : String) :
    isHeader (indent depth ++ text).toList = isHeader text.toList := by
  rw [isHeader, isHeader, dropWhile_indent]

theorem isBlankLine_indent (depth : Nat) (text : String) :
    isBlankLine (indent depth ++ text).toList = isBlankLine text.toList := by
  rw [isBlankLine, isBlankLine, String.toList_append, List.all_append, indent, String.toList_ofList]
  have hindent : (List.replicate (2 * depth) ' ').all Text.isBlank = true :=
    List.all_eq_true.2 fun c hc => by rw [List.eq_of_mem_replicate hc]; rfl
  rw [hindent, Bool.true_and]

/-- What is said below the header of a finding, without the indentation. -/
def remarks (f : Finding) : List String :=
  (f.statement.toList.map fun s => "  --> " ++ s) ++
    (f.label.toList.map fun s => "   = " ++ s) ++
    f.column.toList.map columnNote ++
    (f.help.toList.map fun s => "help: " ++ s) ++
    f.notes.map fun s => "note: " ++ s

/-- The header of a finding: two blanks for each finding that it led to, whether it led to any, its
code and its message. -/
def heading (depth : Nat) (f : Finding) : String :=
  indent depth ++ (if depth = 0 then "error[" else "caused by [") ++ f.code ++ "]: " ++ f.message

theorem header_eq_heading (depth : Nat) (f : Finding) : f.header depth = f.heading depth := by
  rw [header, heading]
  by_cases h : depth = 0
  · rw [if_pos h, if_pos h, h]
    rfl
  · rw [if_neg h, if_neg h]

theorem isHeader_heading (depth : Nat) (f : Finding) :
    isHeader (f.heading depth).toList = true := by
  rw [heading, String.append_assoc, String.append_assoc, String.append_assoc, isHeader_indent]
  split
  · rw [String.toList_append]
    rfl
  · rw [String.toList_append]
    rfl

/-- A text that is no header and not blank. -/
def IsRemark (text : String) : Prop :=
  isHeader text.toList = false ∧ isBlankLine text.toList = false

/-- Whether a text has a character that is not blank, and the first such character begins no
header. -/
def isMark (mark : String) : Bool :=
  (mark.toList.dropWhile Text.isBlank).head?.any fun c => c != 'e' && c != 'c'

/-- **What begins with a mark is a remark**, whatever is said in it. -/
theorem isRemark_append {mark : String} (h : isMark mark = true) (text : String) :
    IsRemark (mark ++ text) := by
  obtain ⟨c, hc, hne⟩ := (Option.any_eq_true _ _).1 h
  obtain ⟨rest, hmark⟩ := List.head?_eq_some_iff.1 hc
  have hstart : (mark ++ text).toList.dropWhile Text.isBlank = c :: (rest ++ text.toList) := by
    rw [String.toList_append, List.dropWhile_append, hmark]
    rfl
  obtain ⟨he, hc⟩ : c ≠ 'e' ∧ c ≠ 'c' := by simpa using hne
  constructor
  · rw [isHeader, hstart]
    simp [List.isPrefixOf, he.symm, hc.symm]
  · rw [isBlankLine, Bool.eq_false_iff]
    intro hblank
    rw [List.dropWhile_eq_nil_iff.2 (List.all_eq_true.1 hblank)] at hstart
    exact List.cons_ne_nil _ _ hstart.symm

theorem columnNote_eq (column : String × SqlType) : columnNote column
    = "note: column `" ++ column.1 ++ "` is of type `" ++ column.2.text ++ "`" := rfl

theorem isRemark_columnNote (column : String × SqlType) : IsRemark (columnNote column) := by
  rw [columnNote_eq, String.append_assoc, String.append_assoc, String.append_assoc]
  exact isRemark_append (by decide) _

theorem isRemark_of_mem_remarks (f : Finding) : ∀ r ∈ f.remarks, IsRemark r := by
  simp only [remarks, List.forall_mem_append, List.forall_mem_map]
  exact ⟨⟨⟨⟨fun s _ => isRemark_append (by decide) s, fun s _ => isRemark_append (by decide) s⟩,
    fun c _ => isRemark_columnNote c⟩, fun s _ => isRemark_append (by decide) s⟩,
    fun s _ => isRemark_append (by decide) s⟩

/-- Lines that show remarks, in order and indented, between blank lines. -/
inductive Shows (depth : Nat) : (lines remarks : List String) → Prop where
  | nil : Shows depth [] []
  | blank {lines remarks : List String} (rest : Shows depth lines remarks) :
    Shows depth ("" :: lines) remarks
  | remark {lines remarks : List String} (text : String) (rest : Shows depth lines remarks) :
    Shows depth ((indent depth ++ text) :: lines) (text :: remarks)

section Shows

variable {lines lines' remarks remarks' : List String}

theorem Shows.append (h : Shows depth lines remarks) (h' : Shows depth lines' remarks') :
    Shows depth (lines ++ lines') (remarks ++ remarks') := by
  induction h with
  | nil => exact h'
  | blank _ ih => exact ih.blank
  | remark text _ ih => exact ih.remark text

theorem shows_map {α : Type} (text : α → String) (as : List α) :
    Shows depth (as.map fun a => indent depth ++ text a) (as.map text) := by
  induction as with
  | nil => exact .nil
  | cons a as ih => exact ih.remark (text a)

/-- Remarks that are set off by blank lines. -/
theorem shows_flatMap {α : Type} (text : α → String) (as : List α) :
    Shows depth (as.flatMap fun a => remark depth (text a)) (as.map text) := by
  induction as with
  | nil => exact .nil
  | cons a as ih => exact (ih.remark (text a)).blank

theorem Shows.isHeader_eq_false (h : Shows depth lines remarks)
    (hremarks : ∀ r ∈ remarks, IsRemark r) : ∀ l ∈ lines.map String.toList, isHeader l = false := by
  induction h with
  | nil => exact List.forall_mem_nil _
  | blank _ ih => exact List.forall_mem_cons.2 ⟨rfl, ih hremarks⟩
  | remark text _ ih =>
    obtain ⟨htext, hremarks⟩ := List.forall_mem_cons.1 hremarks
    exact List.forall_mem_cons.2 ⟨(isHeader_indent depth text).trans htext.1, ih hremarks⟩

theorem Shows.filter_isBlankLine (h : Shows depth lines remarks)
    (hremarks : ∀ r ∈ remarks, IsRemark r) :
    (lines.map String.toList).filter (fun l => !isBlankLine l)
      = remarks.map fun r => (indent depth ++ r).toList := by
  induction h with
  | nil => rfl
  | blank _ ih => exact ih hremarks
  | remark text _ ih =>
    obtain ⟨htext, hremarks⟩ := List.forall_mem_cons.1 hremarks
    have hkept : (!isBlankLine (indent depth ++ text).toList) = true := by
      rw [isBlankLine_indent, htext.2, Bool.not_false]
    rw [List.map_cons, List.filter_cons_of_pos (p := fun l => !isBlankLine l) hkept, ih hremarks,
      List.map_cons]

theorem Shows.isLine (h : Shows depth lines remarks) (hremarks : ∀ r ∈ remarks, IsLine r) :
    ∀ l ∈ lines, IsLine l := by
  induction h with
  | nil => exact List.forall_mem_nil _
  | blank _ ih => exact List.forall_mem_cons.2 ⟨by decide, ih hremarks⟩
  | remark text _ ih =>
    obtain ⟨htext, hremarks⟩ := List.forall_mem_cons.1 hremarks
    exact List.forall_mem_cons.2 ⟨isLine_append.2 ⟨isLine_indent depth, htext⟩, ih hremarks⟩

end Shows

/-- **Below its header a finding shows its remarks.** -/
theorem exists_lines_eq (depth : Nat) (f : Finding) :
    ∃ details, f.lines depth = f.heading depth :: details ∧ Shows depth details f.remarks := by
  have hstatement : Shows depth _ _ := shows_map (fun s => "  --> " ++ s) f.statement.toList
  refine ⟨_, ?_, (((hstatement.append (shows_map (fun s => "   = " ++ s) f.label.toList)).append
    (shows_flatMap columnNote f.column.toList)).append
    (shows_flatMap (fun s => "help: " ++ s) f.help.toList)).append
    (shows_flatMap (fun s => "note: " ++ s) f.notes)⟩
  rw [lines, header_eq_heading]
  simp only [String.append_assoc]
  rfl

/-! ### Texts -/

/-- The texts of a finding: all that is said of it, and the names in the type of its column. -/
def texts (f : Finding) : List String :=
  f.code :: f.message :: (f.statement.toList ++ f.label.toList ++
    (f.column.toList.flatMap fun c => c.1 :: c.2.nestedNames) ++ f.help.toList ++ f.notes)

theorem isLine_heading (h : ∀ text ∈ f.texts, IsLine text) : IsLine (f.heading depth) := by
  obtain ⟨hcode, hrest⟩ := List.forall_mem_cons.1 h
  obtain ⟨hmessage, -⟩ := List.forall_mem_cons.1 hrest
  have hstart : IsLine (if depth = 0 then "error[" else "caused by [") := by
    split <;> decide
  exact isLine_append_five (isLine_indent depth) hstart hcode (by decide) hmessage

theorem isLine_columnNote {c : String × SqlType}
    (h : ∀ text ∈ c.1 :: c.2.nestedNames, IsLine text) : IsLine (columnNote c) := by
  obtain ⟨hname, htype⟩ := List.forall_mem_cons.1 h
  exact isLine_append_five (by decide) hname (by decide) (SqlType.isLine_text htype) (by decide)

theorem isLine_of_mem_remarks (h : ∀ text ∈ f.texts, IsLine text) : ∀ r ∈ f.remarks, IsLine r := by
  simp only [texts, List.forall_mem_cons, List.forall_mem_append, List.forall_mem_flatMap] at h
  obtain ⟨-, -, ⟨⟨⟨hstatement, hlabel⟩, hcolumn⟩, hhelp⟩, hnotes⟩ := h
  simp only [remarks, List.forall_mem_append, List.forall_mem_map]
  refine ⟨⟨⟨⟨fun s hs => ?_, fun s hs => ?_⟩, fun c hc => ?_⟩, fun s hs => ?_⟩, fun s hs => ?_⟩
  · exact isLine_append.2 ⟨by decide, hstatement s hs⟩
  · exact isLine_append.2 ⟨by decide, hlabel s hs⟩
  · exact isLine_columnNote (List.forall_mem_cons.2 (hcolumn c hc))
  · exact isLine_append.2 ⟨by decide, hhelp s hs⟩
  · exact isLine_append.2 ⟨by decide, hnotes s hs⟩

theorem isLine_of_mem_lines (h : ∀ text ∈ f.texts, IsLine text) :
    ∀ l ∈ f.lines depth, IsLine l := by
  obtain ⟨details, hlines, hshows⟩ := exists_lines_eq depth f
  rw [hlines]
  exact List.forall_mem_cons.2 ⟨isLine_heading h, hshows.isLine (isLine_of_mem_remarks h)⟩

end Finding

/-! ## Reports -/

namespace Diagnostic

open Report Finding Text

/-- All findings of a diagnostic, from the last failure to the first. -/
def findings (d : Diagnostic) : List Finding := d.top :: d.causes

/-- The lines of findings from a depth on, and an empty line behind each of them. -/
def sectionLines (depth : Nat) : List Finding → List String
  | [] => []
  | f :: fs => f.lines depth ++ "" :: sectionLines (depth + 1) fs

theorem lines_append_causeLines (depth : Nat) (f : Finding) (fs : List Finding) :
    f.lines depth ++ causeLines (depth + 1) fs ++ [""] = sectionLines depth (f :: fs) := by
  induction fs generalizing depth f with
  | nil => simp [causeLines, sectionLines]
  | cons g fs ih =>
    rw [causeLines, sectionLines, ← ih, List.append_assoc]
    rfl

theorem head?_sectionLines (depth : Nat) (fs : List Finding) :
    (sectionLines depth fs).head? = fs.head?.map (heading depth) := by
  cases fs with
  | nil => rfl
  | cons f fs =>
    obtain ⟨details, hlines, -⟩ := exists_lines_eq depth f
    rw [sectionLines, hlines]
    rfl

/-- **Each finding is a section of the report**, which ends where the next one begins. -/
theorem outline_sectionLines (depth : Nat) (fs : List Finding) :
    outline ((sectionLines depth fs).map String.toList) = fs.mapIdx fun i f =>
      ((f.heading (depth + i)).toList,
        f.remarks.map fun r => (indent (depth + i) ++ r).toList) := by
  induction fs generalizing depth with
  | nil => rfl
  | cons f fs ih =>
    obtain ⟨details, hlines, hshows⟩ := exists_lines_eq depth f
    have hshown : Shows depth (details ++ [""]) f.remarks := by
      simpa only [List.append_nil] using hshows.append Shows.nil.blank
    have hremarks := isRemark_of_mem_remarks f
    have hnext : ∀ l ∈ ((sectionLines (depth + 1) fs).map String.toList).head?,
        isHeader l = true := by
      intro l hl
      rw [List.head?_map, head?_sectionLines, Option.map_map] at hl
      obtain ⟨g, -, rfl⟩ := Option.map_eq_some_iff.1 hl
      exact isHeader_heading (depth + 1) g
    have hsplit : (sectionLines depth (f :: fs)).map String.toList = (f.heading depth).toList ::
        ((details ++ [""]).map String.toList
          ++ (sectionLines (depth + 1) fs).map String.toList) := by
      rw [sectionLines, hlines, ← List.map_append, List.append_assoc]
      rfl
    rw [hsplit,
      outline_section (isHeader_heading depth f) (hshown.isHeader_eq_false hremarks) hnext,
      hshown.filter_isBlankLine hremarks, ih, List.mapIdx_cons]
    simp only [Nat.add_zero, Nat.add_right_comm, Nat.add_assoc]

/-! ### Texts -/

/-- The texts of a diagnostic. -/
def texts (d : Diagnostic) : List String := d.findings.flatMap Finding.texts

theorem isLine_of_mem_sectionLines {depth : Nat} {fs : List Finding}
    (h : ∀ text ∈ fs.flatMap Finding.texts, IsLine text) :
    ∀ l ∈ sectionLines depth fs, IsLine l := by
  induction fs generalizing depth with
  | nil => exact List.forall_mem_nil _
  | cons f fs ih =>
    obtain ⟨hf, hfs⟩ := List.forall_mem_append.1 h
    exact List.forall_mem_append.2
      ⟨isLine_of_mem_lines hf, List.forall_mem_cons.2 ⟨by decide, ih hfs⟩⟩

/-- **A report is cut at its line feeds into the sections of its findings.** -/
theorem splitOn_render {d : Diagnostic} (h : ∀ text ∈ d.texts, IsLine text) :
    d.render.toList.splitOn '\n' = (sectionLines 0 d.findings).map String.toList := by
  have hsections : d.lines ++ [""] = sectionLines 0 d.findings :=
    lines_append_causeLines 0 d.top d.causes
  have hline : ∀ l ∈ d.lines, IsLine l := fun l hl =>
    isLine_of_mem_sectionLines h l (hsections ▸ List.mem_append_left _ hl)
  have hrender : d.render.toList = (d.lines.map String.toList).flatMap (· ++ ['\n']) := by
    rw [render, String.toList_join, List.flatMap_map, List.flatMap_map]
    simp only [String.toList_append]
    rfl
  rw [hrender, splitOn_flatMap_concat, flatMap_splitOn_eq_self (List.forall_mem_map.2 hline),
    ← hsections, List.map_append]
  rfl

/-! ### What can be read -/

/-- **A report can be read.** When no text in a diagnostic has a line feed, the report begins with
the header of the last failure, its headers are those of the failures in order, each indented by how
many failures it led to, and below each header stand, besides blank lines, all remarks on that
failure, once and in order, with the same indentation. -/
theorem outline_render (d : Diagnostic) (h : ∀ text ∈ d.texts, IsLine text) :
    let lines := d.render.toList.splitOn '\n'
    lines.head? = some (d.top.heading 0).toList ∧
    (lines.filter isHeader).length = d.causes.length + 1 ∧
    lines.filter isHeader = (d.findings.mapIdx fun i f => (f.heading i).toList) ∧
    outline lines = d.findings.mapIdx fun i f =>
      ((f.heading i).toList, f.remarks.map fun r => (indent i ++ r).toList) := by
  intro lines
  have hlines : lines = (sectionLines 0 d.findings).map String.toList := splitOn_render h
  have hhead : lines.head? = some (d.top.heading 0).toList := by
    rw [hlines, List.head?_map, head?_sectionLines]
    rfl
  have houtline : outline lines = d.findings.mapIdx fun i f =>
      ((f.heading i).toList, f.remarks.map fun r => (indent i ++ r).toList) := by
    rw [hlines, outline_sectionLines]
    simp only [Nat.zero_add]
  have hheaders : lines.filter isHeader = d.findings.mapIdx fun i f => (f.heading i).toList := by
    rw [← map_fst_outline, houtline, List.mapIdx_eq_zipIdx_map, List.mapIdx_eq_zipIdx_map,
      List.map_map]
    rfl
  refine ⟨hhead, ?_, hheaders, houtline⟩
  rw [hheaders, List.length_mapIdx, findings, List.length_cons]

/-- A failure with two causes, where a note, a message and a label begin like headers. -/
def threeFailures : Diagnostic :=
  { top :=
      { code := "SCHEMA_002"
        statement := some "CREATE TABLE logins"
        message := "Unknown field"
        column := some ("place", .struct [("x", .primitive .string)])
        label := none
        help := some "Check the type"
        notes := ["Names are case-sensitive", "error[SCHEMA_001]: Unknown column"] }
    causes :=
      [{ code := "STREAM_001"
         statement := none
         message := "caused by [STREAM_004]: no codec"
         column := none
         label := some "error[STREAM_004]: no codec"
         help := none
         notes := [] },
        .plain "STREAM_004" "No codec"] }

theorem outline_render_threeFailures : (∀ text ∈ threeFailures.texts, IsLine text) ∧
    ((threeFailures.render.toList.splitOn '\n').filter isHeader).map String.ofList =
      ["error[SCHEMA_002]: Unknown field",
        "  caused by [STREAM_001]: caused by [STREAM_004]: no codec",
        "    caused by [STREAM_004]: No codec"] ∧
    (outline (threeFailures.render.toList.splitOn '\n')).map (fun s => s.2.map String.ofList) =
      [["  --> CREATE TABLE logins", "note: column `place` is of type `STRUCT<`x` STRING>`",
          "help: Check the type", "note: Names are case-sensitive",
          "note: error[SCHEMA_001]: Unknown column"],
        ["     = error[STREAM_004]: no codec"], []] := by
  have h : ∀ text ∈ threeFailures.texts, IsLine text := by decide +kernel
  obtain ⟨-, -, hheaders, houtline⟩ := outline_render threeFailures h
  refine ⟨h, ?_, ?_⟩
  · rw [hheaders]
    decide +kernel
  · rw [houtline]
    decide +kernel

end Diagnostic
end StreamTables
