import Mathlib.Data.Finset.Card
import PipelineCompiler.Lint.Writing
import PipelineCompiler.Proofs.Distinct
import PipelineCompiler.Proofs.Text
import PipelineCompiler.Proofs.Value.Fields

/-!
# The text of reports and their document form

A report is written in two ways, and each way leaves out findings that stand twice. Both are printers of
one thing, what a reader is shown of the report (`Report.shown`): one puts it into bullets and the other
into entries of a message and a link. So neither shows a finding that the other does not, nor in another
order, and what is shown can be read back from the document form (`ShownReport.read?_document`).

Findings are told apart by value and not by their text. Of findings that read alike, as many are shown as
there are different ones among them (`count_shownFindings`).
-/

namespace PipelineCompiler.Lint

/-! ## What a reader is shown -/

/-- The bullet for what is shown of a finding, with the link below it. -/
def Shown.bullet (s : Shown) : List String :=
  ("\t\t* " ++ s.message) :: s.docs.toList.map fun link => "\t\t  [see: " ++ link ++ "]"

/-- One bullet after the other under a heading, or nothing without a bullet. -/
def Shown.bullets (heading : String) (shown : List Shown) : List String :=
  if shown.isEmpty then [] else ("\t" ++ heading ++ ":") :: shown.flatMap Shown.bullet

/-- The entry for what is shown of a finding: its message, and the link if there is one. -/
def Shown.entry (s : Shown) : Value :=
  .map <|
    (.str "message", .str s.message) :: s.docs.toList.map fun link => (.str "docs", .str link)

/-- What an entry shows of a finding. -/
def Shown.read? (v : Value) : Option Shown := do
  let fields ← v.openFields?
  return ⟨← fields.get? "message" Value.text? "", ← fields.get? "docs" (Value.orNull? Value.text?) none⟩

/-- What a reader is shown of a report. -/
structure ShownReport where
  linter : String
  docsUrl : String
  errors : List Shown
  warnings : List Shown

namespace ShownReport

/-- The lines of the text form. -/
def lines (s : ShownReport) : List String :=
  s.linter ::
    if s.errors.isEmpty && s.warnings.isEmpty then ["\tNo errors \\o/"]
    else
      Shown.bullets "Errors" s.errors ++ Shown.bullets "Warnings" s.warnings
        ++ (if s.docsUrl.isEmpty then [] else ["\tDocs: " ++ s.docsUrl])

/-- What is shown of a report as text. -/
def text (s : ShownReport) : String := String.join (s.lines.map fun line => line ++ "\n")

/-- What is shown of a report in document form. -/
def document (s : ShownReport) : Value :=
  .map
    [(.str "linter", .str s.linter), (.str "docs_url", .str s.docsUrl),
      (.str "errors", .seq (s.errors.map Shown.entry)),
      (.str "warnings", .seq (s.warnings.map Shown.entry))]

/-- What a document shows of a report. -/
def read? (v : Value) : Option ShownReport := do
  let fields ← v.openFields?
  return ⟨← fields.get? "linter" Value.text? "", ← fields.get? "docs_url" Value.text? "",
    ← fields.get? "errors" (Value.list? Shown.read?) [],
    ← fields.get? "warnings" (Value.list? Shown.read?) []⟩

end ShownReport

/-- What a reader is shown of a report. -/
def Report.shown (docHost : String) (r : Report) : ShownReport :=
  ⟨r.linter, r.docsUrl, shownFindings docHost r.findings.errors,
    shownFindings docHost r.findings.warnings⟩

/-! ## Two printers -/

variable {docHost : String}

theorem findingLines_eq (docHost : String) (f : Finding) :
    Report.findingLines docHost f = (f.shown docHost).bullet := by
  rw [Report.findingLines, Shown.bullet, Finding.shown]
  cases f.fault.docId? <;> rfl

/-- Something is shown of a list of findings just if there are any. -/
theorem isEmpty_shownFindings (docHost : String) (fs : List Finding) :
    (shownFindings docHost fs).isEmpty = fs.isEmpty := by
  rw [Bool.eq_iff_iff, List.isEmpty_iff, List.isEmpty_iff, shownFindings, List.map_eq_nil_iff,
    List.eq_nil_iff_forall_not_mem, List.eq_nil_iff_forall_not_mem]
  simp only [(firstOccurrences_distinct fs).mem]

theorem sectionLines_eq (docHost heading : String) (fs : List Finding) :
    Report.sectionLines docHost heading fs = Shown.bullets heading (shownFindings docHost fs) := by
  rw [Report.sectionLines, Shown.bullets, isEmpty_shownFindings, shownFindings, List.flatMap_map]
  simp only [← findingLines_eq]

/-- The text of a report is printed from what is shown of it. -/
theorem Report.render_eq (docHost : String) (r : Report) :
    r.render docHost = (r.shown docHost).text := by
  rw [Report.render, ShownReport.text, ShownReport.lines, Report.shown, sectionLines_eq,
    sectionLines_eq, isEmpty_shownFindings, isEmpty_shownFindings]
  rfl

theorem Shown.toValue_eq (s : Shown) : s.toValue = s.entry := by
  obtain ⟨message, docs⟩ := s
  cases docs with
  | none => rfl
  | some link => rfl

/-- So is its document form. -/
theorem Report.toValue_eq (docHost : String) (r : Report) :
    r.toValue docHost = (r.shown docHost).document := by
  have hentries : Shown.toValue = Shown.entry := funext Shown.toValue_eq
  rw [Report.toValue, hentries]
  rfl

/-! ## Reading the document form -/

/-- An entry shows the message and the link that it was written for. -/
theorem Shown.read?_entry (s : Shown) : Shown.read? s.entry = some s := by
  obtain ⟨message, docs⟩ := s
  cases docs with
  | none => rfl
  | some link => rfl

/-- Nothing that is shown of a report is lost in its document form. -/
theorem ShownReport.read?_document (s : ShownReport) :
    ShownReport.read? s.document = some s := by
  have hentries (shown : List Shown) : Value.list? Shown.read? (.seq (shown.map Shown.entry)) = some shown :=
    Value.list?_map fun s _ => s.read?_entry
  have hfields : s.document.openFields?
      = some [("linter", .str s.linter), ("docs_url", .str s.docsUrl),
          ("errors", .seq (s.errors.map Shown.entry)),
          ("warnings", .seq (s.warnings.map Shown.entry))] := rfl
  rw [ShownReport.read?, hfields]
  simp [hentries]

/-! ## Findings that read alike -/

/-- Of findings that read alike, as many are shown as there are different ones among them. -/
theorem count_shownFindings (docHost : String) (fs : List Finding) (s : Shown) :
    (shownFindings docHost fs).count s = (fs.toFinset.filter fun f => f.shown docHost = s).card := by
  have hfirsts := firstOccurrences_distinct fs
  have hset : fs.toFinset.filter (fun f => f.shown docHost = s)
      = ((distinct fs).filter fun f => f.shown docHost == s).toFinset := by
    ext f
    simp [hfirsts.mem]
  rw [hset, List.toFinset_card_of_nodup (hfirsts.nodup.filter _), shownFindings, List.count,
    List.countP_map, List.countP_eq_length_filter]
  rfl

/-! ## Blank reports -/

/-- What stands in a line stands in the text. -/
theorem mem_ofLines {lines : List String} {line : String} {ch : Char} (hline : line ∈ lines)
    (hch : ch ∈ line.toList) : ch ∈ (Report.ofLines lines).toList := by
  rw [Report.ofLines, String.toList_join, List.mem_flatMap]
  exact ⟨_, List.mem_map.2 ⟨line, hline, rfl⟩, by simp [hch]⟩

/-- What is shown of a finding is shown behind a bullet. -/
theorem exists_bullet {shown : List Shown} (h : shown ≠ []) (heading : String) :
    ∃ line ∈ Shown.bullets heading shown, '*' ∈ line.toList := by
  cases shown with
  | nil => exact absurd rfl h
  | cons s rest => exact ⟨"\t\t* " ++ s.message, by simp [Shown.bullets, Shown.bullet], by simp⟩

theorem isEmpty_findings {r : Report} :
    r.findings.isEmpty = true ↔ r.findings.errors = [] ∧ r.findings.warnings = [] := by
  rw [Findings.isEmpty, Bool.and_eq_true_iff, List.isEmpty_iff, List.isEmpty_iff]

/-- The text of a report has a bullet if anything was found. -/
theorem bullet_mem_render (docHost : String) {r : Report} (h : r.findings.isEmpty = false) :
    '*' ∈ (r.render docHost).toList := by
  have hsection (heading : String) {fs : List Finding} (hfs : fs ≠ []) :
      ∃ line ∈ Report.sectionLines docHost heading fs, '*' ∈ line.toList := by
    rw [sectionLines_eq]
    refine exists_bullet (fun hnil => hfs ?_) heading
    rwa [← List.isEmpty_iff, isEmpty_shownFindings, List.isEmpty_iff] at hnil
  rw [Report.render, h]
  by_cases herrors : r.findings.errors = []
  · have hwarnings : r.findings.warnings ≠ [] := fun hnil => by
      rw [isEmpty_findings.2 ⟨herrors, hnil⟩] at h
      exact Bool.noConfusion h
    obtain ⟨line, hline, hch⟩ := hsection "Warnings" hwarnings
    exact mem_ofLines (by simp [hline]) hch
  · obtain ⟨line, hline, hch⟩ := hsection "Errors" herrors
    exact mem_ofLines (by simp [hline]) hch

/-- No linter found anything. -/
def Silent (rs : List Report) : Prop := ∀ r ∈ rs, r.findings.errors = [] ∧ r.findings.warnings = []

/-- Linters that found nothing are left out of the text. -/
theorem Silent.render_eq {rs : List Report} (h : Silent rs) (docHost : String) :
    render rs docHost = "" := by
  have hnone : (rs.filter fun r => !r.findings.isEmpty) = [] :=
    List.filter_eq_nil_iff.2 fun r hr => by simp [isEmpty_findings.2 (h r hr)]
  rw [render, hnone]
  rfl

/-- The text is blank just if no linter found anything. -/
theorem isBlankText_render_iff {rs : List Report} :
    Text.isBlankText (render rs docHost) = true ↔ Silent rs := by
  constructor
  · intro h r hr
    refine isEmpty_findings.1 (Bool.eq_true_of_not_eq_false fun hfinds => ?_)
    have hmem : r ∈ rs.filter fun r => !r.findings.isEmpty :=
      List.mem_filter.2 ⟨hr, by rw [hfinds]; rfl⟩
    have hpart : (r.render docHost).toList
        ∈ ((rs.filter fun r => !r.findings.isEmpty).map fun r => r.render docHost).map String.toList :=
      List.mem_map_of_mem (List.mem_map_of_mem hmem)
    have hbullet : '*' ∈ (render rs docHost).toList := by
      rw [render, String.toList_intercalate]
      exact Text.mem_intercalate hpart (bullet_mem_render docHost hfinds) _
    rw [Text.isBlankText, List.all_eq_true] at h
    exact absurd (h '*' hbullet) (by decide)
  · intro h
    rw [h.render_eq]
    rfl

/-- Blank text is no text at all. -/
theorem render_eq_empty_iff {rs : List Report} : render rs docHost = "" ↔ Silent rs := by
  refine ⟨fun h => ?_, fun h => h.render_eq docHost⟩
  have hblank : Text.isBlankText (render rs docHost) = true :=
    (congrArg Text.isBlankText h).trans (by decide)
  exact isBlankText_render_iff.1 hblank

/-- The text and the document form of a report are printed from the same findings: the errors, and
likewise the warnings, each where it stands first and none of them twice. A finding is shown by its text
and the link for its fault, in a bullet as in an entry, and both can be read back from the document form.
There are as many bullets that read alike as there are different findings for them. The text of all
reports is blank just if no linter found anything. -/
theorem reports_agree (docHost : String) (rs : List Report) :
    (∀ r : Report, r.render docHost = (r.shown docHost).text
        ∧ r.toValue docHost = (r.shown docHost).document
        ∧ ShownReport.read? (r.toValue docHost) = some (r.shown docHost))
      ∧ render rs docHost = "\n".intercalate
          ((rs.filter fun r => !r.findings.isEmpty).map fun r => (r.shown docHost).text)
      ∧ reportsValue docHost rs = .seq (rs.map fun r => (r.shown docHost).document)
      ∧ (∀ fs : List Finding, ∃ firsts, FirstOccurrences fs firsts
          ∧ shownFindings docHost fs
            = firsts.map fun f => ⟨f.text, f.fault.docId?.map (docLink docHost)⟩)
      ∧ (∀ (fs : List Finding) (s : Shown), (shownFindings docHost fs).count s
          = (fs.toFinset.filter fun f => f.shown docHost = s).card)
      ∧ (Text.isBlankText (render rs docHost) = true ↔ Silent rs)
      ∧ (render rs docHost = "" ↔ Silent rs) := by
  refine ⟨fun r => ⟨r.render_eq docHost, r.toValue_eq docHost, ?read⟩, ?text, ?document,
    fun fs => ⟨distinct fs, firstOccurrences_distinct fs, rfl⟩, count_shownFindings docHost,
    isBlankText_render_iff, render_eq_empty_iff⟩
  case read => rw [r.toValue_eq, ShownReport.read?_document]
  case text =>
    rw [render]
    simp only [Report.render_eq]
  case document =>
    have hdocuments : Report.toValue docHost = fun r => (r.shown docHost).document :=
      funext (Report.toValue_eq docHost)
    rw [reportsValue, hdocuments]

/-- A finding that reads like another one is shown beside it, and a repeated one is not. -/
example :
    shownFindings "host"
        [⟨.collaborator "missing field 'script'", none⟩, ⟨.missing "script", none⟩,
          ⟨.missing "script", none⟩]
      = [⟨"missing field 'script'", none⟩,
          ⟨"missing field 'script'", some "host/docs/linter-errors#missing-field"⟩] := by
  decide +kernel

end PipelineCompiler.Lint
