import Mathlib.Data.List.Basic
import Mathlib.Tactic.Choose
import ScriptLexer.File.Snapshot
import ScriptLexer.Program
import ScriptLexer.Proofs.InputLines
import ScriptLexer.Proofs.LineBoundary
import ScriptLexer.Proofs.Visible

set_option autoImplicit false

/-! # Runs over several files

A run reads all its files before it scans one of them. If a file cannot be read, the first such file
is all that is told of (`runFiles_of_unreadable`). Otherwise the run shows what runs over the single
files would show, one after another, with a header above the tokens of each if there are several, and
its status is that of the worst of them. Main statement: `Program.runFiles_all_or_nothing`. -/

namespace ScriptLexer

namespace Program

variable {σ : Type} [Storage σ] (storage : σ)

/-! ## Reading -/

section Reading

variable {storage} {paths readable : List Text} {path : Text} {error : FileError}
  {text : Text → Text}

theorem readSources_of_readable (h : ∀ path ∈ paths, Storage.readText storage path = .ok (text path)) :
    readSources storage paths = ⟨paths.map fun path => ⟨path, text path⟩, none⟩ := by
  induction paths with
  | nil => rfl
  | cons path later ih =>
    obtain ⟨hpath, hlater⟩ := List.forall_mem_cons.1 h
    simp only [readSources, hpath, ih hlater, List.map_cons]

theorem failure_readSources (later : List Text)
    (hreadable : ∀ earlier ∈ readable, ∃ source, Storage.readText storage earlier = .ok source)
    (herror : Storage.readText storage path = .error error) :
    (readSources storage (readable ++ path :: later)).failure = some (path, error) := by
  induction readable with
  | nil => simp only [List.nil_append, readSources, herror]
  | cons earlier readable ih =>
    obtain ⟨⟨source, hsource⟩, hlater⟩ := List.forall_mem_cons.1 hreadable
    simp only [List.cons_append, readSources, hsource, ih hlater]

variable (storage) in
/-- Either every file can be read, or one of them is the first that cannot. -/
theorem readable_or_exists_first (paths : List Text) :
    (∀ path ∈ paths, ∃ source, Storage.readText storage path = .ok source) ∨
      ∃ readable path later error, paths = readable ++ path :: later ∧
        (∀ earlier ∈ readable, ∃ source, Storage.readText storage earlier = .ok source) ∧
        Storage.readText storage path = .error error := by
  induction paths with
  | nil => exact .inl (by simp)
  | cons path later ih =>
    cases hpath : Storage.readText storage path with
    | error error => exact .inr ⟨[], path, later, error, rfl, by simp, hpath⟩
    | ok source =>
      rcases ih with hlater | ⟨readable, first, after, error, rfl, hreadable, hfirst⟩
      · exact .inl (List.forall_mem_cons.2 ⟨⟨source, hpath⟩, hlater⟩)
      · refine .inr ⟨path :: readable, first, after, error, rfl, ?_, hfirst⟩
        exact List.forall_mem_cons.2 ⟨⟨source, hpath⟩, hreadable⟩

end Reading

/-! ## Files that can be read -/

/-- The status tells whether there is a diagnostic. -/
def statusFor (source : Text) : ExitStatus :=
  statusOf !(tokenize source).diagnostics.isEmpty

theorem code_statusFor (source : Text) :
    (statusFor source).code = if (tokenize source).diagnostics = [] then 0 else 65 := by
  rw [statusFor]
  cases (tokenize source).diagnostics <;> rfl

section File

variable (quiet several : Bool) (source : Source)

theorem standardOutput_showFile :
    standardOutput (showFile quiet several source (tokenize source.text)).1 =
      if quiet then []
      else (if several then renderLine (fileHeader source.path) else []) ++
        rowsText (tokenize source.text).tokens := by
  have hreports : standardOutput
      (reportAll source.text (some source.path) (tokenize source.text).diagnostics).events = [] :=
    writes_report.output_foldl _ _
  rw [showFile, standardOutput_append, hreports, List.append_nil]
  cases quiet <;> cases several <;> simp [Event.outLine]

theorem standardError_showFile :
    standardError .quiet (showFile quiet several source (tokenize source.text)).1 =
      (tokenize source.text).diagnostics.flatMap
        (namedReport (source.path ++ [':']) source.text) := by
  have hreports : standardError .quiet
      (reportAll source.text (some source.path) (tokenize source.text).diagnostics).events = _ :=
    standardError_reports source.text (some source.path) writes_report
  rw [showFile, standardError_append, hreports]
  cases quiet <;> cases several <;> simp [Event.outLine, Reporter.new, Reporter.originText]

theorem hadError_showFile :
    (showFile quiet several source (tokenize source.text)).2 =
      !(tokenize source.text).diagnostics.isEmpty :=
  counts_report.hadError_foldl _ source.text (some source.path)

end File

section Readable

variable {storage} {paths : List Text} {text : Text → Text} (quiet : Bool)

/-- The records of what is read and scanned, which come before anything is shown. -/
def fileRecords (paths : List Text) (text : Text → Text) : List Event :=
  paths.map (fun path => .log (loadedRecord ⟨path, text path⟩)) ++
    paths.flatMap fun path => silentEvents (text path)

theorem fileRecords_hidden (paths : List Text) (text : Text → Text) :
    ∀ event ∈ fileRecords paths text, event.IsHidden := by
  intro event hevent
  rw [fileRecords, List.mem_append, List.mem_map, List.mem_flatMap] at hevent
  rcases hevent with ⟨path, -, rfl⟩ | ⟨path, -, hevent⟩
  · exact debug_hidden
  · exact silentEvents_hidden _ event hevent

theorem zip_tokenizeAll (sources : List Source) :
    sources.zip (tokenizeAll (sources.map Source.text)) =
      sources.map fun source => (source, tokenize source.text) := by
  induction sources with
  | nil => rfl
  | cons source later ih => exact congrArg ((source, tokenize source.text) :: ·) ih

theorem runFiles_of_readable (h : ∀ path ∈ paths, Storage.readText storage path = .ok (text path)) :
    runFiles storage paths quiet =
      (fileRecords paths text ++ paths.flatMap (fun path =>
          (showFile quiet (1 < paths.length) ⟨path, text path⟩ (tokenize (text path))).1),
        statusOf (paths.any fun path => !(tokenize (text path)).diagnostics.isEmpty)) := by
  have herror : ∀ path, (showFile quiet (1 < paths.length) ⟨path, text path⟩
      (tokenize (text path))).2 = !(tokenize (text path)).diagnostics.isEmpty :=
    fun path => hadError_showFile quiet _ ⟨path, text path⟩
  simp only [runFiles, readSources_of_readable h, zip_tokenizeAll]
  simp only [List.map_map, List.flatMap_map, List.any_map, Function.comp_def, herror, fileRecords]

theorem standardOutput_runFiles
    (h : ∀ path ∈ paths, Storage.readText storage path = .ok (text path)) :
    standardOutput (runFiles storage paths quiet).1 = paths.flatMap fun path =>
      if quiet then []
      else (if 1 < paths.length then renderLine (fileHeader path) else []) ++
        rowsText (tokenize (text path)).tokens := by
  rw [runFiles_of_readable quiet h, standardOutput_append,
    standardOutput_hidden (fileRecords_hidden paths text), standardOutput_flatMap, List.nil_append]
  congr 1
  funext path
  rw [standardOutput_showFile quiet _ ⟨path, text path⟩]
  simp

theorem standardError_runFiles
    (h : ∀ path ∈ paths, Storage.readText storage path = .ok (text path)) :
    standardError .quiet (runFiles storage paths quiet).1 = paths.flatMap fun path =>
      (tokenize (text path)).diagnostics.flatMap (namedReport (path ++ [':']) (text path)) := by
  rw [runFiles_of_readable quiet h, standardError_append,
    standardError_hidden (fileRecords_hidden paths text), standardError_flatMap, List.nil_append]
  congr 1
  funext path
  exact standardError_showFile quiet _ ⟨path, text path⟩

theorem snd_runFiles (h : ∀ path ∈ paths, Storage.readText storage path = .ok (text path)) :
    (runFiles storage paths quiet).2 =
      statusOf (paths.any fun path => !(tokenize (text path)).diagnostics.isEmpty) := by
  rw [runFiles_of_readable quiet h]

end Readable

/-! ### A single file -/

section Single

variable {path source : Text}

theorem readable_single (hread : Storage.readText storage path = .ok source) :
    ∀ name ∈ [path], Storage.readText storage name = .ok ((fun _ => source) name) := by
  intro name hname
  rw [List.mem_singleton.1 hname, hread]

/-- A file shows what an entry shows, after its name. -/
theorem shows_runFiles (hread : Storage.readText storage path = .ok source) :
    Shows source (path ++ [':']) .quiet (runFiles storage [path] false).1 where
  rows := by
    rw [standardOutput_runFiles false (readable_single storage hread)]
    simp
  reports := by
    rw [standardError_runFiles false (readable_single storage hread), List.flatMap_singleton]

theorem status_runFiles (hread : Storage.readText storage path = .ok source) :
    (runFiles storage [path] false).2 = statusFor source := by
  rw [snd_runFiles false (readable_single storage hread), statusFor, List.any_cons, List.any_nil,
    Bool.or_false]

end Single

/-! ## A file that cannot be read -/

theorem runFiles_of_unreadable {readable : List Text} {path : Text} {error : FileError}
    (later : List Text)
    (hreadable : ∀ earlier ∈ readable, ∃ source, Storage.readText storage earlier = .ok source)
    (herror : Storage.readText storage path = .error error) (quiet : Bool) :
    let run := runFiles storage (readable ++ path :: later) quiet
    standardOutput run.1 = [] ∧
      standardError .quiet run.1 = renderLine (couldNotRead path error) ∧ run.2 = .noInput := by
  intro run
  have hfailure := failure_readSources later hreadable herror
  have hrun : run =
      ((readSources storage (readable ++ path :: later)).sources.map
          (fun source => .log (loadedRecord source)) ++ [.errLine (couldNotRead path error)],
        .noInput) := by
    simp only [run, runFiles, hfailure]
  have hrecords : ∀ event ∈ (readSources storage (readable ++ path :: later)).sources.map
      (fun source => Event.log (loadedRecord source)), event.IsHidden := by
    intro event hevent
    obtain ⟨source, -, rfl⟩ := List.mem_map.1 hevent
    exact debug_hidden
  rw [hrun]
  refine ⟨?_, ?_, rfl⟩
  · rw [standardOutput_append, standardOutput_hidden hrecords]
    rfl
  · rw [standardError_append, standardError_hidden hrecords, Event.errLine, standardError_err]
    simp

/-! ## Runs -/

theorem code_statusOf (hadError : Bool) :
    (statusOf hadError).code = if hadError then 65 else 0 := by
  cases hadError <;> rfl

/-- Without tokens a run reports what it reports with them, and ends alike. -/
theorem runFiles_quiet (paths : List Text) :
    standardOutput (runFiles storage paths true).1 = [] ∧
      standardError .quiet (runFiles storage paths true).1 =
        standardError .quiet (runFiles storage paths false).1 ∧
      (runFiles storage paths true).2 = (runFiles storage paths false).2 := by
  rcases readable_or_exists_first storage paths with h | ⟨readable, path, later, error, rfl, h, he⟩
  · choose! text htext using h
    rw [standardOutput_runFiles true htext, standardError_runFiles true htext,
      standardError_runFiles false htext, snd_runFiles true htext, snd_runFiles false htext]
    simp
  · obtain ⟨houtput, herrors, hstatus⟩ := runFiles_of_unreadable storage later h he true
    obtain ⟨-, herrors', hstatus'⟩ := runFiles_of_unreadable storage later h he false
    exact ⟨houtput, herrors.trans herrors'.symm, hstatus.trans hstatus'.symm⟩

end Program

end ScriptLexer
