import DatabaseMarkup.CommandLine.Run
import DatabaseMarkup.Proofs.Diagnostic.Order
import DatabaseMarkup.Proofs.Document.Json
import DatabaseMarkup.Proofs.Json

/-!
# Runs of the program

A source is read in one way only: a strict reading refuses a document that has diagnostics, and a
lenient one takes it as it is.  `Outcome.Answers` says what a run of the program does with a source,
whatever the files are and however they behave: it warns of every diagnostic, and it either delivers
the JSON of the document or fails and leaves the standard output and all files alone.
`command_line_agrees_with_reading` states that every run does so.
-/

namespace DatabaseMarkup

open Text CommandLine

/-! ## Strict readings -/

namespace Report

variable (report : Report) {strict : Bool}

/-- A document is refused if the reading is strict and there are diagnostics. -/
theorem result_eq_error_iff {rejection : Rejection} :
  report.result strict = .error rejection
    ↔ strict ∧ rejection.diagnostics = report.diagnostics
      ∧ report.diagnostics.head? = some rejection.first
  := by
  obtain ⟨first, all⟩ := rejection
  rw [result]
  cases report.diagnostics with
  | nil => cases strict <;> simp [Rejection.ofDiagnostics?]
  | cons d ds => cases strict <;> simp [Rejection.ofDiagnostics?, eq_comm, and_comm]

/-- The document that is not refused is the one of the report, whether or not the reading is
strict. -/
theorem result_eq_ok_iff {document : Document} :
  report.result strict = .ok document
    ↔ ¬(strict ∧ report.diagnostics ≠ []) ∧ document = report.document
  := by
  rw [result]
  cases report.diagnostics with
  | nil => cases strict <;> simp [Rejection.ofDiagnostics?, eq_comm]
  | cons d ds => cases strict <;> simp [Rejection.ofDiagnostics?, eq_comm]

end Report

/-! ## The text of a document -/

/-- Whether a text is the JSON of a document, on one line or indented.  It then follows the grammar
of JSON, and no other document has the same JSON. -/
structure Document.WrittenAs (document : Document) (compact : Bool) (json : String) : Prop where
  form : json = if compact then document.toJson.compact else document.toJson.pretty
  spelled : document.toJson.SpelledBy json.toList
  isLine : compact → Json.IsLine json.toList
  faithful : ∀ other : Document, other.toJson = document.toJson → other = document

/-- A rendered document is one of the texts that it may be written as. -/
theorem Document.writtenAs_render (document : Document) (compact : Bool) :
  document.WrittenAs compact (document.render compact)
  := by
  constructor
  · rw [render]
  · cases compact with
    | false => exact document.toJson.spelledBy_pretty
    | true => exact document.toJson.spelledBy_compact
  · rintro rfl
    exact document.toJson.isLine_compact
  · exact fun other => Document.toJson_inj.mp

/-- The text on one line of the document that a reading does not refuse, where tables go before
partials. -/
theorem Document.jsonOfSource_of_result {source : String} {strict : Option Bool}
    {document : Document}
    (h : (Reading.ofSource ⟨.tableWins, strict.getD false⟩ source).result = .ok document) :
  jsonOfSource source strict = .ok (document.render true)
  := by
  rw [jsonOfSource, h]

/-! ## The input -/

/-- Only the bytes of a text decode to it. -/
theorem fromUTF8?_eq_some_iff {bytes : ByteArray} {source : String} :
  String.fromUTF8? bytes = some source ↔ bytes = source.toUTF8
  := by
  rw [String.toUTF8_eq_toByteArray, String.fromUTF8?]
  constructor
  · intro h
    split at h
    · obtain rfl := Option.some.inj h
      rfl
    · cases h
  · rintro rfl
    rw [dif_pos source.isValidUTF8]
    rfl

namespace Invocation

variable (invocation : Invocation)

/-- A document that is not refused is answered by its text as a line. -/
theorem result_respondTo_of_ok {source : String} {document : Document}
    (h : (Reading.ofSource invocation.options source).result = .ok document) :
  (invocation.respondTo source).result = .ok (document.render invocation.compact ++ "\n")
  := by
  rw [respondTo]
  dsimp only
  rw [h]

/-- A document that is refused is answered by the message of its rejection. -/
theorem result_respondTo_of_error {source : String} {rejection : Rejection}
    (h : (Reading.ofSource invocation.options source).result = .error rejection) :
  (invocation.respondTo source).result = .error ("Parse error: " ++ rejection.message)
  := by
  rw [respondTo]
  dsimp only
  rw [h]

/-- The bytes of a source are answered as the source is. -/
theorem respond_toUTF8 (source : String) :
  invocation.respond (.ok source.toUTF8) = invocation.respondTo source
  := by
  rw [respond]
  dsimp only
  rw [fromUTF8?_eq_some_iff.mpr rfl]

/-- Contents that are no text are answered like those that cannot be read. -/
theorem respond_notText {bytes : ByteArray} (h : ∀ source : String, bytes ≠ source.toUTF8) :
  invocation.respond (.ok bytes) = invocation.respond (.error .notText)
  := by
  rw [respond, respond]
  dsimp only
  split
  · rename_i source hsource
    exact absurd (fromUTF8?_eq_some_iff.mp hsource) (h source)
  · rfl

end Invocation

/-! ## What a run does -/

namespace CommandLine.Outcome

variable {σ : Type}

/-- Whether a run has failed with a message, so that nothing is on the standard output and the files
are what they were. -/
structure IsFailure (outcome : Outcome) (files after : σ) (message : String) : Prop where
  exitCode : outcome.exitCode = 1
  output : outcome.output = ""
  errors : outcome.errors = some message
  files : after = files

/-- Whether a run has delivered a text.  Without a path the text is on the standard output and the
files are what they were.  With a path the files are what one write leaves, and the run fails if the
write does. -/
def Delivers (outcome : Outcome) (system : FileSystem σ) (files after : σ) (text : String) :
    Option String → Prop
  | none => outcome.exitCode = 0 ∧ outcome.output = text ∧ outcome.errors = none ∧ after = files
  | some path =>
    outcome.output = "" ∧ after = (system.write path text.toUTF8 files).2
      ∧ match (system.write path text.toUTF8 files).1 with
        | .ok () => outcome.exitCode = 0 ∧ outcome.errors = none
        | .error e => outcome.exitCode = 1 ∧ outcome.errors = some (writeFailure path e)

/-- Whether a run of an invocation does with a source what it should. -/
structure Answers (outcome : Outcome) (system : FileSystem σ) (environment : Environment)
    (invocation : Invocation) (files after : σ) (source : String) : Prop where
  warnings : outcome.warnings
    = ((Reading.ofSource invocation.options source).diagnostics.map
        (Diagnostic.warning invocation.input)).filter environment.admits
  exitCode : (∀ path ∈ invocation.output, ∀ text, (system.write path text files).1 = .ok ()) →
    (outcome.exitCode = 0
      ↔ ∃ document, (Reading.ofSource invocation.options source).result = .ok document)
  accepted : ∀ document, (Reading.ofSource invocation.options source).result = .ok document →
    ∃ json, document.WrittenAs invocation.compact json
      ∧ outcome.Delivers system files after (json ++ "\n") invocation.output
      ∧ (invocation.mergePolicy = .tableWins → invocation.compact →
          ∀ strict : Option Bool, strict.getD false = invocation.strict →
            Document.jsonOfSource source strict = .ok json)
  refused : ∀ rejection, (Reading.ofSource invocation.options source).result = .error rejection →
    outcome.IsFailure files after ("Parse error: " ++ rejection.message)

end CommandLine.Outcome

/-! ## Runs -/

namespace CommandLine

variable {σ : Type} {system : FileSystem σ} {environment : Environment}
  {arguments : List String} {invocation : Invocation} {files after : σ}
  {warnings : List String} {output : Option String} {text path : String}

/-- A failure writes nothing and leaves all files as they are. -/
theorem conclude_error (message : String) :
  (conclude system.access warnings output (.error message)).run files
    = (⟨1, "", warnings, some message⟩, files)
  := rfl

/-- A text without an output path is printed. -/
theorem conclude_printed :
  (conclude system.access warnings none (.ok text)).run files
    = (⟨0, text, warnings, none⟩, files)
  := rfl

/-- A text that is written to its path is not printed. -/
theorem conclude_written (h : system.write path text.toUTF8 files = (.ok (), after)) :
  (conclude system.access warnings (some path) (.ok text)).run files
    = (⟨0, "", warnings, none⟩, after)
  := by
  have hwrite : (system.access.write path text.toUTF8).run files = (.ok (), after) := h
  rw [conclude, StateT.run_bind, hwrite]
  rfl

/-- A text that is not written is a failure with the path in its message. -/
theorem conclude_unwritten {e : FileError}
    (h : system.write path text.toUTF8 files = (.error e, after)) :
  (conclude system.access warnings (some path) (.ok text)).run files
    = (⟨1, "", warnings, some (writeFailure path e)⟩, after)
  := by
  have hwrite : (system.access.write path text.toUTF8).run files = (.error e, after) := h
  rw [conclude, StateT.run_bind, hwrite]
  rfl

/-- A run reads its input and then comes to its end. -/
theorem runOn_eq (h : Request.ofArguments? arguments = some (.run invocation)) :
  let response := invocation.respond (system.read invocation.input files)
  let warnings := response.warnings.filter environment.admits
  runOn system environment arguments files
    = Id.run ((conclude system.access warnings invocation.output response.result).run files)
  := by
  rw [runOn, run, h]
  rfl

/-- A run shows the warnings that the environment admits, however it ends. -/
theorem warnings_runOn (h : Request.ofArguments? arguments = some (.run invocation)) :
  (runOn system environment arguments files).1.warnings
    = (invocation.respond (system.read invocation.input files)).warnings.filter environment.admits
  := by
  rw [runOn_eq h]
  cases (invocation.respond (system.read invocation.input files)).result with
  | error message => rfl
  | ok text =>
    cases invocation.output with
    | none => rfl
    | some path =>
      rcases hw : system.write path text.toUTF8 files with ⟨e | ⟨⟩, after⟩
      · rw [conclude_unwritten hw]
        rfl
      · rw [conclude_written hw]
        rfl

/-- Where there is no text to deliver, the run fails. -/
theorem isFailure_runOn (h : Request.ofArguments? arguments = some (.run invocation))
    {message : String}
    (hr : (invocation.respond (system.read invocation.input files)).result = .error message) :
  let final := runOn system environment arguments files
  final.1.IsFailure files final.2 message
  := by
  intro final
  have hfinal : final = _ := runOn_eq h
  rw [hfinal, hr, conclude_error]
  exact ⟨rfl, rfl, rfl, rfl⟩

/-- Where there is a text, the run delivers it. -/
theorem delivers_runOn (h : Request.ofArguments? arguments = some (.run invocation))
    {text : String}
    (hr : (invocation.respond (system.read invocation.input files)).result = .ok text) :
  let final := runOn system environment arguments files
  final.1.Delivers system files final.2 text invocation.output
  := by
  intro final
  have hfinal : final = _ := runOn_eq h
  rw [hfinal, hr]
  cases invocation.output with
  | none =>
    rw [conclude_printed]
    exact ⟨rfl, rfl, rfl, rfl⟩
  | some path =>
    rcases hw : system.write path text.toUTF8 files with ⟨e | ⟨⟩, after⟩
    · rw [conclude_unwritten hw]
      rw [Outcome.Delivers, hw]
      exact ⟨rfl, rfl, rfl, rfl⟩
    · rw [conclude_written hw]
      rw [Outcome.Delivers, hw]
      exact ⟨rfl, rfl, rfl, rfl⟩

namespace Outcome

variable {outcome : Outcome}

/-- A text that is delivered where it can be written is a success. -/
theorem Delivers.exitCode_eq_zero (h : outcome.Delivers system files after text output)
    (hw : ∀ path ∈ output, ∀ contents, (system.write path contents files).1 = .ok ()) :
  outcome.exitCode = 0
  := by
  cases output with
  | none => exact h.1
  | some path =>
    have hend := h.2.2
    rw [hw path rfl] at hend
    exact hend.1

end Outcome

/-- A run over a file that can be read answers its source. -/
theorem answers_runOn (h : Request.ofArguments? arguments = some (.run invocation))
    {source : String} (hs : system.read invocation.input files = .ok source.toUTF8) :
  let final := runOn system environment arguments files
  final.1.Answers system environment invocation files final.2 source
  := by
  intro final
  have hrespond : invocation.respond (system.read invocation.input files)
      = invocation.respondTo source := by
    rw [hs, invocation.respond_toUTF8]
  have hdelivers {document : Document}
      (hd : (Reading.ofSource invocation.options source).result = .ok document) :
      final.1.Delivers system files final.2 (document.render invocation.compact ++ "\n")
        invocation.output := by
    apply delivers_runOn h
    rw [hrespond, invocation.result_respondTo_of_ok hd]
  have hfails {rejection : Rejection}
      (hj : (Reading.ofSource invocation.options source).result = .error rejection) :
      final.1.IsFailure files final.2 ("Parse error: " ++ rejection.message) := by
    apply isFailure_runOn h
    rw [hrespond, invocation.result_respondTo_of_error hj]
  constructor
  · rw [warnings_runOn h, hrespond]
    rfl
  · intro hw
    cases hresult : (Reading.ofSource invocation.options source).result with
    | ok document =>
      have hzero := (hdelivers hresult).exitCode_eq_zero hw
      exact ⟨fun _ => ⟨document, rfl⟩, fun _ => hzero⟩
    | error rejection =>
      rw [(hfails hresult).exitCode]
      constructor
      · intro hzero
        cases hzero
      · rintro ⟨document, hd⟩
        cases hd
  · intro document hd
    refine ⟨_, document.writtenAs_render _, hdelivers hd, ?_⟩
    intro hpolicy hcompact strict hstrict
    rw [hcompact]
    rw [Invocation.options, hpolicy, ← hstrict] at hd
    exact Document.jsonOfSource_of_result hd
  · exact fun rejection hj => hfails hj

/-- A run whose input cannot be read, or is no text, fails before anything is read. -/
theorem isFailure_runOn_of_unreadable
    (h : Request.ofArguments? arguments = some (.run invocation)) {e : FileError}
    (he : invocation.respond (system.read invocation.input files)
      = invocation.respond (.error e)) :
  let final := runOn system environment arguments files
  final.1.warnings = []
    ∧ final.1.IsFailure files final.2
        ("Failed to read " ++ invocation.input ++ ": " ++ e.message)
  := by
  intro final
  constructor
  · rw [warnings_runOn h, he]
    rfl
  · apply isFailure_runOn h
    rw [he]
    rfl

end CommandLine

/-- A strict reading and a lenient one come to the same document and the same diagnostics, in the
order of their lines, and the strict one refuses the document if there are any.  A run of the program
warns of all of them either way, as far as the environment lets warnings through.  It ends well if
the document is not refused and can be written, and has then delivered the JSON of the document as a
line.  Otherwise, also if its input cannot be read or is no text, it fails: nothing is on the
standard output, and if nothing was to be written all files are what they were. -/
theorem command_line_agrees_with_reading (policy : MergePolicy) (source : String) :
  let t := stripComments source.toList
  let reading strict := Reading.ofSource ⟨policy, strict⟩ source
  ((reading true).document = (reading false).document
      ∧ (reading true).diagnostics = (reading false).diagnostics)
    ∧ Diagnostic.IsOrdered ((Document.ofText policy t).2.map (Diagnostic.ofFinding (.ofText t)))
        (reading false).diagnostics
    ∧ (∀ strict document, (reading strict).result = .ok document
        ↔ ¬(strict ∧ (reading strict).diagnostics ≠ []) ∧ document = (reading strict).document)
    ∧ (∀ strict rejection, (reading strict).result = .error rejection
        ↔ strict ∧ rejection.diagnostics = (reading strict).diagnostics
          ∧ (reading strict).diagnostics.head? = some rejection.first)
    ∧ ∀ (σ : Type) (system : FileSystem σ) environment arguments invocation files,
        Request.ofArguments? arguments = some (.run invocation) →
        invocation.mergePolicy = policy →
          let final := runOn system environment arguments files
          let fails e := final.1.warnings = [] ∧ final.1.IsFailure files final.2
            ("Failed to read " ++ invocation.input ++ ": " ++ FileError.message e)
          (system.read invocation.input files = .ok source.toUTF8 →
              final.1.Answers system environment invocation files final.2 source)
            ∧ (∀ e, system.read invocation.input files = .error e → fails e)
            ∧ ∀ bytes, system.read invocation.input files = .ok bytes →
              (∀ other : String, bytes ≠ other.toUTF8) → fails .notText
  := by
  intro t reading
  refine ⟨⟨rfl, rfl⟩, Diagnostic.isOrdered_sort _,
    fun strict _ => (reading strict).toReport.result_eq_ok_iff,
    fun strict _ => (reading strict).toReport.result_eq_error_iff, ?_⟩
  intro σ system environment arguments invocation files h hpolicy final fails
  refine ⟨answers_runOn h, ?_, ?_⟩
  · intro e he
    apply isFailure_runOn_of_unreadable h
    rw [he]
  · intro bytes hb hother
    apply isFailure_runOn_of_unreadable h
    rw [hb, invocation.respond_notText hother]

/-- Files that are nothing but contents at paths, where every path can be written to. -/
def FileSystem.byPath : FileSystem (String → Option ByteArray) where
  read path files :=
    match files path with
    | some contents => .ok contents
    | none => .error .notFound
  write path contents files := (.ok (), fun other => if other = path then contents else files other)

/-- A line that is skipped makes a strict run fail and leaves a lenient one to write its file.  Both
warn of the line, unless the environment keeps warnings back. -/
theorem strict_run_fails_where_lenient_run_writes :
  let source := "Enum e \x7b\n a\n\x7d\nskipped"
  let json := "\x7b\x22project\x22:null,\x22tables\x22:[],\x22enums\x22:"
    ++ "[\x7b\x22schema\x22:\x22public\x22,\x22name\x22:\x22e\x22,\x22values\x22:"
    ++ "[\x7b\x22name\x22:\x22a\x22,\x22settings\x22:[],\x22note\x22:null\x7d]\x7d],"
    ++ "\x22relationships\x22:[],\x22table_groups\x22:[],\x22table_partials\x22:[],"
    ++ "\x22sticky_notes\x22:[]\x7d"
  let warning := "input.dbml: 4:1: skipped unrecognised text `skipped`"
  let files path := if path = "input.dbml" then some source.toUTF8 else none
  let arguments := ["input.dbml", "--compact", "-o", "out.json"]
  let lenient := runOn .byPath { } arguments files
  let strict := runOn .byPath { } ("--strict" :: arguments) files
  let quiet := runOn .byPath ⟨some fun _ => false⟩ arguments files
  (lenient.1.exitCode = 0 ∧ lenient.1.output = "" ∧ lenient.1.warnings = [warning]
      ∧ FileSystem.byPath.read "out.json" lenient.2 = .ok (json ++ "\n").toUTF8
      ∧ Document.jsonOfSource source none = .ok json)
    ∧ (strict.1.exitCode = 1 ∧ strict.1.output = "" ∧ strict.1.warnings = [warning]
      ∧ strict.2 = files)
    ∧ quiet.1.warnings = []
  := by
  intro source json warning files arguments lenient strict quiet
  obtain ⟨_, _, _, _, hrun⟩ := command_line_agrees_with_reading .tableWins source
  let document : Document :=
    { enums := [{ schema := "public", name := "e", values := [⟨"a", [], none⟩] }] }
  let diagnostic : Diagnostic :=
    ⟨.unknownDeclaration, 4, 1, "skipped unrecognised text `skipped`"⟩
  have hreport : Report.ofSource .tableWins source = ⟨document, [diagnostic]⟩ := by
    decide +kernel
  have hlenient : Request.ofArguments? arguments
      = some (.run ⟨"input.dbml", some "out.json", true, .tableWins, false⟩) := by decide +kernel
  have hstrict : Request.ofArguments? ("--strict" :: arguments)
      = some (.run ⟨"input.dbml", some "out.json", true, .tableWins, true⟩) := by decide +kernel
  have hl : lenient.1.Answers .byPath { } _ files lenient.2 source :=
    (hrun _ _ _ _ _ _ hlenient rfl).1 rfl
  have hs : strict.1.Answers .byPath { } _ files strict.2 source :=
    (hrun _ _ _ _ _ _ hstrict rfl).1 rfl
  have hq : quiet.1.Answers .byPath ⟨some fun _ => false⟩ _ files quiet.2 source :=
    (hrun _ _ _ _ _ _ hlenient rfl).1 rfl
  -- The runs are known by what they answer only, and are not to be carried out.
  clear_value lenient strict quiet
  have hreading strict : Reading.ofSource ⟨.tableWins, strict⟩ source
      = ⟨⟨document, [diagnostic]⟩, strict⟩ := by
    rw [Reading.ofSource]
    dsimp only
    rw [hreport]
  have hwarning : [diagnostic].map (Diagnostic.warning "input.dbml") = [warning] := by
    decide +kernel
  have hshown strict (environment : Environment) :
      ((Reading.ofSource ⟨.tableWins, strict⟩ source).diagnostics.map
          (Diagnostic.warning "input.dbml")).filter environment.admits
        = [warning].filter environment.admits := by
    rw [hreading, hwarning]
  have hdocument : (Reading.ofSource ⟨.tableWins, false⟩ source).result = .ok document := by
    rw [hreading]
    rfl
  have hrejected : (Reading.ofSource ⟨.tableWins, true⟩ source).result
      = .error ⟨diagnostic, [diagnostic]⟩ := by
    rw [hreading]
    rfl
  obtain ⟨written, hwritten, hdelivered, hjson⟩ := hl.accepted document hdocument
  obtain rfl : written = json := by
    rw [hwritten.form]
    decide +kernel
  have hfailure := hs.refused _ hrejected
  refine ⟨⟨?_, hdelivered.1, ?_, ?_, hjson rfl rfl none rfl⟩,
    ⟨hfailure.exitCode, hfailure.output, ?_, hfailure.files⟩, ?_⟩
  · exact (hl.exitCode fun _ _ _ => rfl).mpr ⟨document, hdocument⟩
  · exact hl.warnings.trans (hshown false { })
  · rw [hdelivered.2.1]
    rfl
  · exact hs.warnings.trans (hshown true { })
  · exact hq.warnings.trans (hshown false _)

end DatabaseMarkup
