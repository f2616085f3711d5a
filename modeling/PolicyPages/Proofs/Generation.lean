import PolicyPages.Generation
import PolicyPages.Proofs.Repetition

/-!
# Generating twice

A run loads before it writes: if loading fails, nothing is changed. `runWith_again` is that a second run
has the result of the first and leaves every place as it is, if it loads the same annotations. That
holds also for runs that stop with a failure, and for pages that are written to one place.

One failure may be repeated with another reason: if a directory cannot be made whose path goes up behind
a name, directories that the first run has made may let the second one fail at another name
(`not_every_failure_repeated`).
-/

namespace PolicyPages.Generation

open Files (Tree)

/-- A run makes a directory; a failure to do so names a path. -/
inductive Makes (request : Request) : (named directory : Path) → Prop
  | listing {file parent : Path} (asked : request.annotationsFile = some file)
      (above : file.parent? = some parent) : Makes request file parent
  | pages {directory : Path} (mem : directory ∈ Site.directories request.out) :
      Makes request directory directory

/-- A failure that is the other one; or both times a directory could not be made whose path turns back,
and the reasons differ. The files are those that are left when the run stops for the first time. -/
def SameFailure (request : Request) (stopped : Tree) (first second : Failure) : Prop :=
  second = first ∨ ∃ named directory, Makes request named directory ∧ directory.turnsBack = true ∧
    ∃ reason other, RefusedTwice stopped directory reason other ∧
      first = .write named reason ∧ second = .write named other

/-- What a run does with the annotations that it has loaded. -/
def continueWith (renderer : PageRenderer) (request : Request) (registry : Registry) :
    Action Failure Report := do
  Action.log [.annotationsLoaded registry.modules.length registry.size]
  match request.annotationsFile with
  | some path => writeListing registry path
  | none => pure ()
  let membership := Membership.ofRegistry registry
  Action.log (membership.warnings.map LookupWarning.event)
  Action.log (Topic.all.flatMap (Document.buildEvents registry))
  let written ← (documents registry membership).mapM (Site.writeTopic request.out renderer)
  let report : Report := ⟨written.flatten, membership.warnings, registry.size⟩
  Action.log [.generated request.out report.written.length report.annotationCount
    report.warnings.length]
  return report

variable {renderer : PageRenderer} {settings : Settings} {request : Request} {registry : Registry}
  {before after : Session} {result : Except Failure Report}

/-- A run loads, and then continues with what it has loaded. -/
theorem outcome_runWith (renderer : PageRenderer) (settings : Settings) (request : Request)
    (before : Session) :
    ∃ events, (runWith renderer settings request).outcome before =
      match Registry.load before.files settings.discovery request.roots with
      | .ok registry => (continueWith renderer request registry).outcome ⟨before.files, events⟩
      | .error failure => (.error failure, ⟨before.files, events⟩) := by
  have parts : runWith renderer settings request = (do
      let tree ← Action.files
      Action.log (Registry.loadEvents tree settings.discovery request.roots)
      let registry ← Action.ofResult (Registry.load tree settings.discovery request.roots)
      continueWith renderer request registry) := rfl
  refine ⟨before.events ++
    Registry.loadEvents before.files settings.discovery request.roots, ?_⟩
  rw [parts, Action.outcome_bind, Action.outcome_files]
  dsimp only
  rw [Action.outcome_bind, Action.outcome_log]
  dsimp only
  rw [Action.outcome_bind, Action.outcome_ofResult]
  cases Registry.load before.files settings.discovery request.roots <;> rfl

/-! ### The parts of a run -/

section

variable {agree : Tree → Failure → Failure → Prop}

theorem repeats_writeListing (same : ∀ tree failure, agree tree failure failure) {path : Path}
    (turned : ∀ parent, path.parent? = some parent → parent.turnsBack = true →
      ∀ tree reason other, RefusedTwice tree parent reason other →
        agree tree (.write path reason) (.write path other)) :
    (writeListing registry path).Repeats agree := by
  have last : (do
      Action.write (.write path) path registry.listing
      Action.log [.annotationsDumped path registry.annotations.length] :
        Action Failure Unit).Repeats agree :=
    (Action.repeats_write fun _ _ => same _ _).bind fun _ => Action.repeats_log _
  unfold writeListing
  cases above : path.parent? with
  | none =>
    dsimp only
    split
    · exact (Action.repeats_throw fun _ => same _ _).bind fun _ => last
    · exact last
  | some parent =>
    have below := (Action.repeats_createDirectories (fun _ _ => same _ _) (turned parent above)).bind
      fun _ => last
    dsimp only
    split
    · exact (Action.repeats_throw fun _ => same _ _).bind fun _ => below
    · exact below

theorem repeats_writePage (same : ∀ tree failure, agree tree failure failure) (page : PlannedPage) :
    (Site.writePage page).Repeats agree := by
  rw [Site.writePage_eq]
  cases page.text with
  | error failure => exact Action.repeats_throw fun _ => same _ _
  | ok text =>
    exact (Action.repeats_write fun _ _ => same _ _).bind fun _ => Action.repeats_pure _

theorem repeats_writeTopic (same : ∀ tree failure, agree tree failure failure) {out : Path}
    (turned : ∀ directory ∈ Site.directories out, directory.turnsBack = true →
      ∀ tree reason other, RefusedTwice tree directory reason other →
        agree tree (.write directory reason) (.write directory other))
    (document : Document) : (Site.writeTopic out renderer document).Repeats agree := by
  rw [Site.writeTopic_eq]
  refine Action.Repeats.bind (Action.repeats_forIn fun directory mem => ?_) fun _ => ?_
  · exact Action.repeats_createDirectories (fun _ _ => same _ _) (turned directory mem)
  · refine (Action.repeats_mapM fun page _ => repeats_writePage same page).bind fun _ => ?_
    exact (Action.repeats_log _).bind fun _ => Action.repeats_pure _

end

theorem repeats_continueWith :
    (continueWith renderer request registry).Repeats (SameFailure request) := by
  have same (tree : Tree) (failure : Failure) : SameFailure request tree failure failure := .inl rfl
  have turned {named directory : Path} (makes : Makes request named directory)
      (turns : directory.turnsBack = true) (tree : Tree) (reason other : Files.Error)
      (refused : RefusedTwice tree directory reason other) :
      SameFailure request tree (.write named reason) (.write named other) :=
    .inr ⟨named, directory, makes, turns, reason, other, refused, rfl, rfl⟩
  have topics (membership : Membership) :
      ((documents registry membership).mapM (Site.writeTopic request.out renderer)).Repeats
        (SameFailure request) :=
    Action.repeats_mapM fun document _ =>
      repeats_writeTopic same (fun _ mem => turned (.pages mem)) document
  have rest : (do
      let membership := Membership.ofRegistry registry
      Action.log (membership.warnings.map LookupWarning.event)
      Action.log (Topic.all.flatMap (Document.buildEvents registry))
      let written ← (documents registry membership).mapM (Site.writeTopic request.out renderer)
      let report : Report := ⟨written.flatten, membership.warnings, registry.size⟩
      Action.log [.generated request.out report.written.length report.annotationCount
        report.warnings.length]
      return report : Action Failure Report).Repeats (SameFailure request) :=
    (Action.repeats_log _).bind fun _ => (Action.repeats_log _).bind fun _ =>
      (topics _).bind fun _ => (Action.repeats_log _).bind fun _ => Action.repeats_pure _
  unfold continueWith
  refine (Action.repeats_log _).bind fun _ => ?_
  cases asked : request.annotationsFile with
  | none => exact (Action.repeats_pure ()).bind fun _ => rest
  | some file =>
    exact (repeats_writeListing same fun _ above => turned (.listing asked above)).bind
      fun _ => rest

/-- Generation loads before it writes, and does the same when it is done again. -/
theorem runWith_again (renderer : PageRenderer) (settings : Settings) (request : Request)
    (closed : before.files.Closed)
    (run : (runWith renderer settings request).outcome before = (result, after)) :
    (∀ failure, Registry.load before.files settings.discovery request.roots = .error failure →
      result = .error failure ∧ after.files = before.files) ∧
    (Registry.load after.files settings.discovery request.roots =
        Registry.load before.files settings.discovery request.roots →
      ∃ again last, (runWith renderer settings request).outcome after = (again, last) ∧
        Agrees (SameFailure request after.files) result again ∧
        ∀ place, last.files.at? place = after.files.at? place) := by
  obtain ⟨events, first⟩ := outcome_runWith renderer settings request before
  obtain ⟨eventsAgain, second⟩ := outcome_runWith renderer settings request after
  rw [first] at run
  cases loaded : Registry.load before.files settings.discovery request.roots with
  | error failure =>
    rw [loaded] at run
    obtain ⟨rfl, rfl⟩ := Prod.mk.inj run
    refine ⟨fun other same => ⟨congrArg _ (Except.error.inj same), rfl⟩, fun same => ?_⟩
    rw [same] at second
    exact ⟨_, _, second, .error (.inl rfl), fun _ => rfl⟩
  | ok registry =>
    rw [loaded] at run
    refine ⟨nofun, fun same => ?_⟩
    rw [same] at second
    let loadedBefore : Session := ⟨before.files, events⟩
    have run : (continueWith renderer request registry).outcome loadedBefore = (result, after) := run
    have inside : loadedBefore.files.Closed := closed
    obtain ⟨-, -, repeats⟩ := repeats_continueWith.of_outcome inside run
    -- Nothing is added between the two runs.
    have ready : Ready result after.files after.files := by
      cases result with
      | ok report => exact .refl _
      | error failure => exact .refl _
    obtain ⟨again, last, repeated, agrees, -, changes⟩ := repeats ⟨after.files, eventsAgain⟩ ready
    refine ⟨again, last, second.trans repeated, agrees, fun place => ?_⟩
    rcases changes place with ⟨-, unchanged⟩ | changed
    · exact unchanged
    · exact changed

/-! ### Samples -/

/-- The place that a path leads to from the root, if it holds no `.` and no `..`. -/
def placeOf (text : String) : Files.Place :=
  (Path.ofText text).segments

/-- A rule source without annotations, and a file. -/
def sampleFiles : Files.Tree where
  entries :=
    [(placeOf "repo", .directory),
      (placeOf "repo/a.rego", .file (.text "package a\n")),
      (placeOf "file", .file (.text "x"))]
  workingDirectory := []

theorem closed_sampleFiles : sampleFiles.Closed :=
  Files.Tree.closed_of_entries (by decide +kernel)

/-- A request for pages, and for the list of annotations in another directory or not at all. -/
def sampleRequest (out : String) (listing : Option String) : Request :=
  ⟨[.ofText "repo"], .ofText out, listing.map .ofText⟩

/-- What was loaded is the registry without annotations. -/
def loadsNothing (loaded : Except Failure Registry) : Bool :=
  match loaded with
  | .ok ⟨[], []⟩ => true
  | _ => false

theorem eq_of_loadsNothing {loaded : Except Failure Registry} (h : loadsNothing loaded = true) :
    loaded = .ok ⟨[], []⟩ := by
  unfold loadsNothing at h
  split at h
  · rfl
  · contradiction

/-- The sample is generated twice. -/
theorem runWith_again_sample :
    let request := sampleRequest "out" (some "list/all.json")
    let run := runWith (AsciiDoc.renderer none) Settings.default request
    ∃ result after again last, run.outcome (.start sampleFiles) = (result, after) ∧
      result.toOption.any (fun report => report.written.length = 10) = true ∧
      run.outcome after = (again, last) ∧ Agrees (SameFailure request after.files) result again ∧
      ∀ place, last.files.at? place = after.files.at? place := by
  intro request run
  let outcome := run.outcome (.start sampleFiles)
  have evaluated : loadsNothing (Registry.load outcome.2.files Settings.default.discovery
        request.roots) = true ∧
      loadsNothing (Registry.load sampleFiles Settings.default.discovery request.roots) = true ∧
      outcome.1.toOption.any (fun report => report.written.length = 10) = true := by
    decide +kernel
  obtain ⟨loadedAfter, loadedBefore, wrote⟩ := evaluated
  have loads : Registry.load outcome.2.files Settings.default.discovery request.roots =
      Registry.load sampleFiles Settings.default.discovery request.roots :=
    (eq_of_loadsNothing loadedAfter).trans (eq_of_loadsNothing loadedBefore).symm
  have twice := @runWith_again (.start sampleFiles) outcome.2 outcome.1 (AsciiDoc.renderer none)
    Settings.default request closed_sampleFiles rfl
  obtain ⟨again, last, repeated, agrees, unchanged⟩ := twice.2 loads
  exact ⟨outcome.1, outcome.2, again, last, rfl, wrote, repeated, agrees, unchanged⟩

/-- Whether a run ends since a directory cannot be made for a reason. -/
def failsToWrite (result : Except Failure Report) (reason : Files.Error) : Bool :=
  match result with
  | .error (.write _ error) => error = reason
  | _ => false

/-- The directory `new/../file/partials` cannot be made, since there is a file above it. The first run
finds that out behind `new`, which it makes; the second run fails at the whole path. -/
theorem not_every_failure_repeated :
    ¬ ∀ (settings : Settings) (request : Request) (before after : Session)
        (result : Except Failure Report), before.files.Closed →
      (run settings request).outcome before = (result, after) →
      Registry.load after.files settings.discovery request.roots =
        Registry.load before.files settings.discovery request.roots →
      ∃ last, (run settings request).outcome after = (result, last) ∧
        ∀ place, last.files.at? place = after.files.at? place := by
  intro always
  let request := sampleRequest "new/../file" none
  let outcome := (run Settings.default request).outcome (.start sampleFiles)
  have evaluated : loadsNothing (Registry.load outcome.2.files Settings.default.discovery
        request.roots) = true ∧
      loadsNothing (Registry.load sampleFiles Settings.default.discovery request.roots) = true ∧
      failsToWrite outcome.1 .alreadyExists = true ∧
      failsToWrite ((run Settings.default request).outcome outcome.2).1 .alreadyExists = false := by
    decide +kernel
  obtain ⟨loadedAfter, loadedBefore, first, second⟩ := evaluated
  have loads : Registry.load outcome.2.files Settings.default.discovery request.roots =
      Registry.load sampleFiles Settings.default.discovery request.roots :=
    (eq_of_loadsNothing loadedAfter).trans (eq_of_loadsNothing loadedBefore).symm
  obtain ⟨last, repeated, -⟩ := always Settings.default request (.start sampleFiles) outcome.2
    outcome.1 closed_sampleFiles rfl loads
  rw [repeated, first] at second
  contradiction

end PolicyPages.Generation
