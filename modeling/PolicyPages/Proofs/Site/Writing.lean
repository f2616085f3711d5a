import PolicyPages.Page.AsciiDoc
import PolicyPages.Proofs.Files.Denotation
import PolicyPages.Proofs.Files.Volume
import PolicyPages.Proofs.Topic
import PolicyPages.Site

/-!
# What a run leaves on disk

The pages of a document are written in order, and the first failure ends the run. What the run leaves
is said of the pages that it has written (`Site.Wrote`): the path of each denotes a file with the text of
the last of them that was written to this file, and no other file has changed.

One page that is written leaves that behind (`Site.wrote_of_write`), and so do pages that are written
behind others (`Site.Wrote.append`); so a run leaves it behind for all pages, or for those before
the one at which it stops (`Site.meets_writePagesOn`, `Site.meets_writeTopicOn`).

That holds on every sound volume. What a write leaves that fails is not said: the file may be empty by then,
or hold a part of its text. Nothing like it holds where a device takes a text and does not keep it
(`Site.not_every_prefix_left`).
-/

namespace PolicyPages.Site

open Files (Place Tree Volume)

variable {out : Path} {renderer : PageRenderer} {document : Document}

/-! ### Pages that have been written -/

/-- Of the pages that are written to the file at a place, the page is the last one. -/
def IsLast (tree : Tree) (pages : List PlannedPage) (place : Place) (page : PlannedPage) : Prop :=
  ∃ earlier later, pages = earlier ++ page :: later ∧ tree.Denotes page.path place ∧
    ∀ other ∈ later, ¬ tree.Denotes other.path place

/-- Just these pages have been written, one after the other. -/
structure Wrote (before after : Tree) (pages : List PlannedPage) : Prop where
  /-- Nothing is taken away. -/
  grows : before.Grows after
  /-- The path of each page denotes a file, which holds the text of the page written last to it. -/
  holds : ∀ page ∈ pages, ∃ place last text, IsLast after pages place last ∧ last.text = .ok text ∧
    after.find true page.path = .ok (place, .file (.text text))
  /-- Each page has been rendered. -/
  rendered : ∀ page ∈ pages, ∃ text, page.text = .ok text
  /-- A place that no page was written to is as before, or has become a directory. -/
  others : ∀ place, (∀ page ∈ pages, ¬ after.Denotes page.path place) →
    after.at? place = before.at? place ∨
      before.at? place = none ∧ after.at? place = some .directory

section

variable {before between after : Tree} {first second : List PlannedPage} {page : PlannedPage}
  {place : Place} {text : String}

theorem IsLast.append_right (h : IsLast after second place page) (first : List PlannedPage) :
    IsLast after (first ++ second) place page := by
  obtain ⟨earlier, later, rfl, denotes, last⟩ := h
  exact ⟨first ++ earlier, later, (List.append_assoc ..).symm, denotes, last⟩

theorem IsLast.append_left (h : IsLast after first place page)
    (none : ∀ other ∈ second, ¬ after.Denotes other.path place) :
    IsLast after (first ++ second) place page := by
  obtain ⟨earlier, later, rfl, denotes, last⟩ := h
  exact ⟨earlier, later ++ second, by simp, denotes, List.forall_mem_append.2 ⟨last, none⟩⟩

theorem wrote_of_addsDirectories (adds : before.AddsDirectories after) : Wrote before after [] where
  grows := adds.grows
  holds := by simp
  rendered := by simp
  others place _ := adds.at? place

theorem Wrote.refl (tree : Tree) : Wrote tree tree [] :=
  wrote_of_addsDirectories (.refl tree)

/-- A page that is written. -/
theorem wrote_of_write (rendered : page.text = .ok text)
    (written : before.write page.path (.text text) = .ok after) : Wrote before after [page] := by
  obtain ⟨place, below, rfl, found⟩ := Tree.find_of_write written
  refine ⟨Tree.grows_of_write written, ?_, ?_, fun other elsewhere => .inl ?_⟩
  · intro same mem
    obtain rfl := List.mem_singleton.1 mem
    exact ⟨place, same, text, ⟨[], [], rfl, ⟨_, found⟩, by simp⟩, rendered, found⟩
  · intro same mem
    obtain rfl := List.mem_singleton.1 mem
    exact ⟨text, rendered⟩
  · refine Tree.at?_put_of_ne below ?_
    rintro rfl
    exact elsewhere page List.mem_cons_self ⟨_, found⟩

namespace Wrote

theorem exists_denotes (h : Wrote before after first) (mem : page ∈ first) :
    ∃ place, after.Denotes page.path place := by
  obtain ⟨place, _, _, -, -, found⟩ := h.holds page mem
  exact ⟨place, _, found⟩

/-- What is written later does not change what a path denotes. -/
theorem denotes_iff (h : Wrote before between first) (grows : between.Grows after)
    (mem : page ∈ first) : after.Denotes page.path place ↔ between.Denotes page.path place := by
  obtain ⟨_, denotes⟩ := h.exists_denotes mem
  exact denotes.iff_of_grows grows

/-- The last page of a file is still the last one if none is written to the file later. -/
theorem isLast_append (h : Wrote before between first) (later : Wrote between after second)
    (last : IsLast between first place page)
    (none : ∀ other ∈ second, ¬ after.Denotes other.path place) :
    IsLast after (first ++ second) place page := by
  obtain ⟨front, back, rfl, denotes, noOther⟩ := last
  refine IsLast.append_left ⟨front, back, rfl, denotes.grows later.grows, fun other mem now => ?_⟩ none
  refine noOther other mem ((h.denotes_iff later.grows ?_).1 now)
  exact List.mem_append_right _ (List.mem_cons_of_mem _ mem)

/-- The file of an earlier page holds the text of the last page of all that was written to it. -/
theorem holds_append (h : Wrote before between first) (later : Wrote between after second)
    (mem : page ∈ first) : ∃ place last text, IsLast after (first ++ second) place last ∧
      last.text = .ok text ∧ after.find true page.path = .ok (place, .file (.text text)) := by
  obtain ⟨place, last, text, isLast, rendered, found⟩ := h.holds page mem
  have denotes : after.Denotes page.path place :=
    Tree.Denotes.grows ⟨_, found⟩ later.grows
  by_cases again : ∃ other ∈ second, after.Denotes other.path place
  · obtain ⟨other, memOther, denotesOther⟩ := again
    obtain ⟨there, lastOther, textOther, isLastOther, renderedOther, foundOther⟩ :=
      later.holds other memOther
    obtain rfl := denotesOther.unique ⟨_, foundOther⟩
    exact ⟨place, lastOther, textOther, isLastOther.append_right first, renderedOther,
      denotes.find_eq (Tree.at?_of_find foundOther)⟩
  · have none : ∀ other ∈ second, ¬ after.Denotes other.path place :=
      fun other memOther now => again ⟨other, memOther, now⟩
    have there := Tree.at?_of_find found
    have kept : after.at? place = some (.file (.text text)) := by
      rcases later.others place none with same | ⟨free, -⟩
      · exact same.trans there
      · rw [there] at free
        contradiction
    exact ⟨place, last, text, h.isLast_append later isLast none, rendered, denotes.find_eq kept⟩

/-- Pages that are written behind others. -/
theorem append (h : Wrote before between first) (later : Wrote between after second) :
    Wrote before after (first ++ second) where
  grows := h.grows.trans later.grows
  holds page mem := by
    rcases List.mem_append.1 mem with inFirst | inSecond
    · exact h.holds_append later inFirst
    · obtain ⟨place, last, text, isLast, rest⟩ := later.holds page inSecond
      exact ⟨place, last, text, isLast.append_right first, rest⟩
  rendered := List.forall_mem_append.2 ⟨h.rendered, later.rendered⟩
  others place elsewhere := by
    obtain ⟨notFirst, notSecond⟩ := List.forall_mem_append.1 elsewhere
    have notBefore : ∀ page ∈ first, ¬ between.Denotes page.path place :=
      fun page mem now => notFirst page mem (now.grows later.grows)
    rcases h.others place notBefore with same | ⟨free, directory⟩
    · rw [← same]
      exact later.others place notSecond
    · rcases later.others place notSecond with same | ⟨none, -⟩
      · exact .inr ⟨free, same.trans directory⟩
      · rw [directory] at none
        contradiction

/-- A file that is made or changed is that of a page. -/
theorem exists_page_of_changed {content : Files.Content} (h : Wrote before after first)
    (now : after.at? place = some (.file content))
    (changed : before.at? place ≠ some (.file content)) :
    ∃ page ∈ first, after.Denotes page.path place := by
  by_contra none
  have elsewhere : ∀ page ∈ first, ¬ after.Denotes page.path place :=
    fun page mem denotes => none ⟨page, mem, denotes⟩
  rcases h.others place elsewhere with same | ⟨-, directory⟩
  · exact changed (same.symm.trans now)
  · simp [now] at directory

end Wrote

end

/-! ### Where a run stops -/

/-- A page of a document with its number. The pages of packages without a name are missing. -/
inductive IsPage (out : Path) (renderer : PageRenderer) (document : Document) :
    (number : Nat) → PlannedPage → Prop
  | nav : IsPage out renderer document 0
      ⟨(Page.partialsDirectory out).join (.ofText (Page.navName document.topic.qualifier)),
        renderer.nav document⟩
  | overview : IsPage out renderer document 1
      ⟨(Page.pagesDirectory out).join (.ofText (Page.overviewName document.topic.qualifier)),
        renderer.overview document⟩
  | package {index : Nat} {part : Section} {name : String}
      (inDocument : document.packages[index]? = some part)
      (named : part.package.packageName = .ok name) : IsPage out renderer document (index + 2)
      ⟨(Page.packagesDirectory out).join (.ofText (Page.packageName document.topic.qualifier name)),
        renderer.package document part⟩

/-- The first pages of a document, so many of them and in order. -/
structure AreFirst (out : Path) (renderer : PageRenderer) (document : Document) (count : Nat)
    (pages : List PlannedPage) : Prop where
  length : pages.length = count
  isPage : ∀ {number : Nat} {page : PlannedPage}, pages[number]? = some page →
    IsPage out renderer document number page

theorem AreFirst.exists_isPage {count : Nat} {pages : List PlannedPage} {page : PlannedPage}
    (h : AreFirst out renderer document count pages) (mem : page ∈ pages) :
    ∃ number, IsPage out renderer document number page := by
  obtain ⟨number, found⟩ := List.mem_iff_getElem?.1 mem
  exact ⟨number, h.isPage found⟩

/-- Why writing a document stops when `count` pages are written. The failure names what it stops at. The
files are given as they were after the last page that was written, and as they are in the end. -/
inductive Stops (volume : Volume) (out : Path) (renderer : PageRenderer) (document : Document) :
    (count : Nat) → (last after : Tree) → Failure → Prop
  /-- A directory for the pages cannot be made. -/
  | directory {directory : Path} {error : Files.Error} {before tree : Tree}
      (mem : directory ∈ directories out)
      (refused : volume.createDirectories before directory = (.error error, tree)) :
      Stops volume out renderer document 0 tree tree (.write directory error)
  /-- The next package has no name. -/
  | unnamed {index : Nat} {part : Section} {violation : ContractViolation} {tree : Tree}
      (inDocument : document.packages[index]? = some part)
      (unnamed : part.package.packageName = .error violation) :
      Stops volume out renderer document (index + 2) tree tree
        (.page (Page.packagesDirectory out) (.contract violation))
  /-- The next page cannot be rendered. -/
  | unrendered {count : Nat} {page : PlannedPage} {cause : Failure} {tree : Tree}
      (next : IsPage out renderer document count page) (unrendered : page.text = .error cause) :
      Stops volume out renderer document count tree tree (.page page.path cause)
  /-- The next page cannot be written. Only its own file may be spoilt. -/
  | unwritten {count : Nat} {page : PlannedPage} {text : String} {error : Files.Error}
      {last after : Tree} (next : IsPage out renderer document count page)
      (rendered : page.text = .ok text)
      (refused : volume.write last page.path (.text text) = (.error error, after))
      (attempts : last.Attempts page.path after) :
      Stops volume out renderer document count last after (.write page.path error)

/-- Why a page is not written, and what becomes of the files. -/
inductive Refuses (volume : Volume) (last : Tree) (page : PlannedPage) :
    (after : Tree) → Failure → Prop
  | unrendered {cause : Failure} (unrendered : page.text = .error cause) :
      Refuses volume last page last (.page page.path cause)
  | unwritten {text : String} {error : Files.Error} {after : Tree} (rendered : page.text = .ok text)
      (refused : volume.write last page.path (.text text) = (.error error, after))
      (attempts : last.Attempts page.path after) :
      Refuses volume last page after (.write page.path error)

section

variable {volume : Volume} {last after : Tree} {count : Nat} {failure : Failure}
  {page : PlannedPage}

theorem Stops.kind (h : Stops volume out renderer document count last after failure) :
    failure.kind = .render := by
  cases h <;> rfl

/-- On a faultless volume, nothing is spoilt. -/
theorem Stops.eq_of_faultless
    (h : Stops .faultless out renderer document count last after failure) : after = last := by
  cases h with
  | directory | unnamed | unrendered => rfl
  | unwritten _ _ refused _ => exact Volume.eq_of_faultless_write refused

/-- A page of the sequence belongs to a package without a name, or is one of the document. -/
theorem isPage_or_unnamed (h : (pages out renderer document)[count]? = some page) :
    IsPage out renderer document count page ∨
      ∃ index part violation, count = index + 2 ∧ document.packages[index]? = some part ∧
        part.package.packageName = .error violation ∧
        page = ⟨Page.packagesDirectory out, .error (.contract violation)⟩ := by
  match count with
  | 0 =>
    obtain rfl := Option.some.inj h
    exact .inl .nav
  | 1 =>
    obtain rfl := Option.some.inj h
    exact .inl .overview
  | index + 2 =>
    have h : (document.packages.map (packagePage out renderer document))[index]? = some page := h
    rw [List.getElem?_map, Option.map_eq_some_iff] at h
    obtain ⟨part, inDocument, rfl⟩ := h
    cases named : part.package.packageName with
    | ok name =>
      rw [packagePage, named]
      exact .inl (.package inDocument named)
    | error violation =>
      rw [packagePage, named]
      exact .inr ⟨index, part, violation, rfl, inDocument, named, rfl⟩

/-- Pages of the sequence that have been rendered are the first ones of the document. -/
theorem areFirst_take (within : count ≤ (pages out renderer document).length)
    (rendered : ∀ page ∈ (pages out renderer document).take count, ∃ text, page.text = .ok text) :
    AreFirst out renderer document count ((pages out renderer document).take count) where
  length := List.length_take_of_le within
  isPage {number page} found := by
    obtain ⟨text, renders⟩ := rendered page (List.mem_of_getElem? found)
    rw [List.getElem?_take] at found
    split_ifs at found
    rcases isPage_or_unnamed found with isPage | ⟨_, _, _, -, -, -, rfl⟩
    · exact isPage
    · contradiction

/-- A page that is refused stops the run. -/
theorem stops_of_refuses (next : (pages out renderer document)[count]? = some page)
    (refuses : Refuses volume last page after failure) :
    Stops volume out renderer document count last after failure := by
  rcases isPage_or_unnamed next with isPage | ⟨index, part, violation, rfl, inDocument, unnamed, rfl⟩
  · cases refuses with
    | unrendered unrendered => exact .unrendered isPage unrendered
    | unwritten rendered refused attempts => exact .unwritten isPage rendered refused attempts
  · cases refuses with
    | unrendered unrendered =>
      obtain rfl := Except.error.inj unrendered
      exact .unnamed inDocument unnamed
    | unwritten rendered refused => contradiction

end

/-! ### Runs -/

section

variable {volume : Volume}

/-- A page is written, or refused, when its file may be spoilt. -/
theorem meets_writePageOn (sound : volume.IsSound) (page : PlannedPage) (before : Session) :
    (writePageOn volume page).Meets before
      (fun path after => path = page.path ∧ Wrote before.files after.files [page])
      (fun failure after => Refuses volume before.files page after.files failure) := by
  unfold writePageOn
  cases rendered : page.text with
  | error cause => exact .unrendered rendered
  | ok text =>
    rw [Action.meets_bind_iff, Action.Meets, Action.writeOn, Action.outcome_change]
    cases written : volume.write before.files page.path (.text text) with
    | mk result tree =>
      cases result with
      | error error => exact .unwritten rendered written (sound.failed written)
      | ok _ => exact ⟨rfl, wrote_of_write rendered (sound.written written)⟩

/-- Pages are written up to one that is refused. -/
theorem meets_writePagesOn (sound : volume.IsSound) (pages : List PlannedPage)
    (before : Session) :
    (pages.mapM (writePageOn volume)).Meets before
      (fun written after =>
        written = pages.map PlannedPage.path ∧ Wrote before.files after.files pages)
      (fun failure after => ∃ count page last, pages[count]? = some page ∧
        Refuses volume last page after.files failure ∧
        Wrote before.files last (pages.take count)) := by
  induction pages generalizing before with
  | nil => exact ⟨rfl, .refl _⟩
  | cons page rest ih =>
    rw [List.mapM_cons, Action.meets_bind_iff]
    refine (meets_writePageOn sound page before).imp ?_ ?_
    · rintro _ between ⟨rfl, wrote⟩
      rw [Action.meets_bind_iff]
      refine (ih between).imp ?_ ?_
      · rintro _ after ⟨rfl, wroteRest⟩
        exact ⟨rfl, wrote.append wroteRest⟩
      · rintro failure after ⟨count, next, last, found, refuses, wroteRest⟩
        exact ⟨count + 1, next, last, found, refuses, wrote.append wroteRest⟩
    · exact fun failure after refuses => ⟨0, page, before.files, rfl, refuses, .refl _⟩

/-- Directories are made up to one that is refused. -/
theorem meets_createDirectoriesOn (sound : volume.IsSound) (paths : List Path)
    (before : Session) :
    (forIn paths PUnit.unit fun path _ => do
        Action.createDirectoriesOn volume (.write path) path
        return .yield PUnit.unit : Action Failure PUnit).Meets before
      (fun _ after => before.files.AddsDirectories after.files)
      (fun failure after => before.files.AddsDirectories after.files ∧
        ∃ path ∈ paths, ∃ error, ∃ tree : Tree, failure = .write path error ∧
          volume.createDirectories tree path = (.error error, after.files)) := by
  induction paths generalizing before with
  | nil => exact .refl _
  | cons path rest ih =>
    rw [List.forIn_cons, bind_assoc]
    simp only [pure_bind]
    rw [Action.meets_bind_iff, Action.Meets, Action.createDirectoriesOn, Action.outcome_change]
    cases made : volume.createDirectories before.files path with
    | mk result tree =>
      have adds := sound.createDirectories made
      cases result with
      | error error => exact ⟨adds, path, List.mem_cons_self, error, before.files, rfl, made⟩
      | ok _ =>
        refine (ih ⟨tree, before.events⟩).imp ?_ ?_
        · exact fun _ after more => adds.trans more
        · rintro failure after ⟨more, other, mem, refused⟩
          exact ⟨adds.trans more, other, List.mem_cons_of_mem _ mem, refused⟩

/-- Writing a document writes all its pages, or those before the one at which it stops. -/
theorem meets_writeTopicOn (sound : volume.IsSound) (out : Path) (renderer : PageRenderer)
    (document : Document) (before : Session) :
    (writeTopicOn volume out renderer document).Meets before
      (fun written after => written = (pages out renderer document).map PlannedPage.path ∧
        Wrote before.files after.files (pages out renderer document))
      (fun failure after => ∃ count last, count ≤ (pages out renderer document).length ∧
        Stops volume out renderer document count last after.files failure ∧
        Wrote before.files last ((pages out renderer document).take count)) := by
  unfold writeTopicOn
  rw [Action.meets_bind_iff]
  refine (meets_createDirectoriesOn sound (directories out) before).imp ?_ ?_
  · intro _ between adds
    rw [Action.meets_bind_iff]
    refine (meets_writePagesOn sound (pages out renderer document) between).imp ?_ ?_
    · rintro _ after ⟨rfl, wrote⟩
      exact ⟨rfl, (wrote_of_addsDirectories adds).append wrote⟩
    · rintro failure after ⟨count, page, last, next, refuses, wrote⟩
      obtain ⟨within, -⟩ := List.getElem?_eq_some_iff.1 next
      exact ⟨count, last, within.le, stops_of_refuses next refuses,
        (wrote_of_addsDirectories adds).append wrote⟩
  · rintro _ after ⟨adds, directory, mem, error, tree, rfl, refused⟩
    exact ⟨0, after.files, Nat.zero_le _, .directory mem refused, wrote_of_addsDirectories adds⟩

/-- On a faultless volume, the run leaves nothing but pages that it has written. -/
theorem meets_writeTopic (out : Path) (renderer : PageRenderer) (document : Document)
    (before : Session) :
    (writeTopic out renderer document).Meets before
      (fun written after => written = (pages out renderer document).map PlannedPage.path ∧
        Wrote before.files after.files (pages out renderer document))
      (fun _ after => ∃ count,
        Wrote before.files after.files ((pages out renderer document).take count)) := by
  refine (meets_writeTopicOn Volume.isSound_faultless out renderer document before).imp
    (fun _ _ => id) ?_
  rintro failure after ⟨count, last, -, stops, wrote⟩
  exact ⟨count, stops.eq_of_faultless ▸ wrote⟩

/-- On a sound volume, a run that succeeds has written all pages in order, and reports their paths. A run
that fails has written the pages before the one at which it stops, and reports a failure to render that
names this page, or the directory that is missing. The path of each page that was written denotes a file
with the text of the last of them for that file, and no other file is made or changed, but for the file of
the page that was being written when the run stopped. -/
theorem writeTopicOn_leaves_prefix (sound : volume.IsSound) (out : Path)
    (renderer : PageRenderer) (document : Document) (before : Session) :
    (writeTopicOn volume out renderer document).Meets before
      (fun written after => ∃ pages,
        AreFirst out renderer document (document.packages.length + 2) pages ∧
        written = pages.map PlannedPage.path ∧ Wrote before.files after.files pages)
      (fun failure after => failure.kind = .render ∧ ∃ count pages last,
        AreFirst out renderer document count pages ∧ Wrote before.files last pages ∧
        Stops volume out renderer document count last after.files failure) := by
  have length : (pages out renderer document).length = document.packages.length + 2 := by
    simp [pages]
  refine (meets_writeTopicOn sound out renderer document before).imp ?_ ?_
  · rintro written after ⟨paths, wrote⟩
    have first := @areFirst_take out renderer document _ length.ge
      fun page mem => wrote.rendered page (List.mem_of_mem_take mem)
    rw [List.take_of_length_le length.le] at first
    exact ⟨_, first, paths, wrote⟩
  · rintro failure after ⟨count, last, within, stops, wrote⟩
    exact ⟨stops.kind, count, _, last, areFirst_take within wrote.rendered, wrote, stops⟩

end

/-! ### Volumes that are full, and devices -/

/-- A topic without packages. It has two pages. -/
def bareTopic : Document :=
  ⟨Topic.all.head Topic.all_ne_nil, [], []⟩

/-- Writes the pages of the topic without packages. -/
def writeBareTopic (volume : Volume) : Action Failure (List Path) :=
  writeTopicOn volume (.ofText "out") (AsciiDoc.renderer none) bareTopic

/-- There is room for the navigation, and for the beginning of the overview. -/
theorem writeTopicOn_leaves_prefix_sample :
    ∃ failure after, (writeBareTopic (.ofCapacity 64)).outcome (.start .empty) =
        (.error failure, after) ∧
      after.files.read (.ofText "out/pages/release_policy.adoc") = .ok "= Release Policy\n\nThe" ∧
      failure.kind = .render ∧ ∃ count pages last,
        AreFirst (.ofText "out") (AsciiDoc.renderer none) bareTopic count pages ∧
        Wrote (Session.start .empty).files last pages ∧
        Stops (.ofCapacity 64) (.ofText "out") (AsciiDoc.renderer none) bareTopic count last
          after.files failure := by
  have evaluated : (writeBareTopic (.ofCapacity 64)).failsWith (.start .empty) (fun _ after =>
      after.files.read (.ofText "out/pages/release_policy.adoc") =
        .ok "= Release Policy\n\nThe") = true := by
    decide +kernel
  obtain ⟨failure, after, outcome, cut⟩ := Action.exists_outcome_of_failsWith evaluated
  -- From a session behind a variable, the run is not evaluated again.
  generalize Session.start .empty = before at outcome ⊢
  have leaves := writeTopicOn_leaves_prefix (Volume.isSound_ofCapacity 64) (.ofText "out")
    (AsciiDoc.renderer none) bareTopic before
  exact ⟨failure, after, outcome, of_decide_eq_true cut, leaves.of_outcome_eq_error outcome⟩

/-- What a run would leave if all that is written stayed and a write that fails changed nothing. -/
structure LeavesPrefix (volume : Volume) (out : Path) (renderer : PageRenderer)
    (document : Document) (before : Session) : Prop where
  meets : (writeTopicOn volume out renderer document).Meets before
    (fun written after => ∃ pages,
      AreFirst out renderer document (document.packages.length + 2) pages ∧
      written = pages.map PlannedPage.path ∧ Wrote before.files after.files pages)
    (fun failure after => failure.kind = .render ∧ ∃ count pages last,
      AreFirst out renderer document count pages ∧ Wrote before.files after.files pages ∧
      Stops volume out renderer document count last after.files failure)

/-- The file of a page that has been written holds the text of a page. -/
theorem Wrote.exists_text {before after : Tree} {count : Nat} {pages : List PlannedPage}
    {page : PlannedPage} {place : Place} {content : Files.Content} (h : Wrote before after pages)
    (first : AreFirst out renderer document count pages) (mem : page ∈ pages)
    (found : after.find true page.path = .ok (place, .file content)) :
    ∃ number other text, IsPage out renderer document number other ∧ other.text = .ok text ∧
      content = .text text := by
  obtain ⟨_, other, text, ⟨earlier, later, rfl, -⟩, rendered, holds⟩ := h.holds page mem
  obtain ⟨number, isPage⟩ := first.exists_isPage (List.mem_append_right earlier List.mem_cons_self)
  rw [found, Except.ok.injEq, Prod.mk.injEq, Files.Node.file.injEq] at holds
  exact ⟨number, other, text, isPage, rendered, holds.2⟩

/-- A text that is none of the two pages. -/
def IsForeign (text : String) : Prop :=
  ((AsciiDoc.renderer none).nav bareTopic).toOption ≠ some text ∧
    ((AsciiDoc.renderer none).overview bareTopic).toOption ≠ some text

theorem IsForeign.not_isPage {text : String} (h : IsForeign text) {number : Nat}
    {page : PlannedPage} (isPage : IsPage out (AsciiDoc.renderer none) bareTopic number page) :
    page.text ≠ .ok text := by
  cases isPage with
  | nav => exact fun same => h.1 (congrArg Except.toOption same)
  | overview => exact fun same => h.2 (congrArg Except.toOption same)
  | package inDocument _ => simp [bareTopic] at inDocument

/-- The place of a device that keeps nothing. -/
def nullDevice : Place :=
  (Path.ofText "dev/null").segments

/-- The navigation is a link to the device. -/
def linkedToDevice : Tree where
  entries :=
    [((Path.ofText "dev").segments, .directory),
      (nullDevice, .file (.text "")),
      ((Path.ofText "out").segments, .directory),
      ((Path.ofText "out/partials").segments, .directory),
      ((Path.ofText "out/partials/release_policy_nav.adoc").segments,
        .link (.ofText "/dev/null"))]
  workingDirectory := []

/-- A page that is written to a device is nowhere, though the run succeeds; and a page for which there is no
room leaves the beginning of its text, though the run fails. -/
theorem not_every_prefix_left :
    ¬ LeavesPrefix (.withSink nullDevice) (.ofText "out") (AsciiDoc.renderer none) bareTopic
        (.start linkedToDevice) ∧
      ¬ LeavesPrefix (.ofCapacity 64) (.ofText "out") (AsciiDoc.renderer none) bareTopic
        (.start .empty) := by
  constructor
  · intro leaves
    have evaluated : (writeBareTopic (.withSink nullDevice)).succeedsWith (.start linkedToDevice)
        (fun _ after => after.files.find true (.ofText "out/partials/release_policy_nav.adoc") =
          .ok (nullDevice, .file (.text ""))) = true := by
      decide +kernel
    obtain ⟨written, after, yields, found⟩ := Action.exists_yields_of_succeedsWith evaluated
    have foreign : IsForeign "" := by
      constructor <;> decide +kernel
    generalize Session.start linkedToDevice = before at leaves yields
    obtain ⟨pages, first, -, wrote⟩ := leaves.meets.of_yields yields
    -- The first of the two pages is the navigation.
    obtain ⟨nav, rest, rfl⟩ := List.exists_cons_of_length_pos (by rw [first.length]; decide)
    have isNav : IsPage _ _ _ 0 nav := first.isPage rfl
    cases isNav with
    | nav =>
      obtain ⟨number, other, text, isPage, rendered, same⟩ :=
        wrote.exists_text first List.mem_cons_self (of_decide_eq_true found)
      obtain rfl := Files.Content.text.inj same
      exact foreign.not_isPage isPage rendered
  · intro leaves
    have evaluated : (writeBareTopic (.ofCapacity 64)).failsWith (.start .empty) (fun _ after =>
        after.files.at? (Path.ofText "out/pages/release_policy.adoc").segments =
          some (.file (.text "= Release Policy\n\nThe"))) = true := by
      decide +kernel
    obtain ⟨failure, after, outcome, cut⟩ := Action.exists_outcome_of_failsWith evaluated
    have cut := of_decide_eq_true cut
    have foreign : IsForeign "= Release Policy\n\nThe" := by
      constructor <;> decide +kernel
    have new : (Session.start .empty).files.at?
        (Path.ofText "out/pages/release_policy.adoc").segments ≠
          some (.file (.text "= Release Policy\n\nThe")) := by
      decide +kernel
    generalize Session.start .empty = before at leaves outcome new
    obtain ⟨-, count, pages, last, first, wrote, -⟩ := leaves.meets.of_outcome_eq_error outcome
    obtain ⟨page, mem, denotes⟩ := wrote.exists_page_of_changed cut new
    obtain ⟨number, other, text, isPage, rendered, same⟩ :=
      wrote.exists_text first mem (denotes.find_eq cut)
    obtain rfl := Files.Content.text.inj same
    exact foreign.not_isPage isPage rendered

end PolicyPages.Site
