import Mathlib.Data.List.Nodup
import PolicyPages.Proofs.Page.Names
import PolicyPages.Proofs.Page.Rendering
import PolicyPages.Site

/-!
# Where pages are

Each page is at a list of names below the directory of the output (`Page.belows`,
`Site.forall₂_pageAt`), and pages of different kinds or topics are at different ones
(`Page.disjoint_belows`). So the names are all different just when no topic has two packages with one
key (`Page.nodup_flatMap_belows_iff`), and then so are the paths (`Site.PageAt.components_eq_iff`).
-/

namespace PolicyPages

open PolicyPages.Path (oneSeparator)

/-- The name of the package of a section. -/
def Section.pageName (part : Section) : String :=
  match part.package.packageName with
  | .ok name => name
  | .error _ => ""

/-- What the pages of packages of one topic are told apart by: the last segment of the package, with each
run of separators as one. -/
def Section.pageKey (part : Section) : FileName :=
  oneSeparator (Path.ofText part.pageName).units

/-- The package of a section has a name without dots. -/
def Section.Named (part : Section) : Prop :=
  ∃ name, part.package.packageName = .ok name ∧ '.' ∉ name.toList

theorem Section.Named.packageName_eq {part : Section} (h : part.Named) :
    part.package.packageName = .ok part.pageName ∧ '.' ∉ part.pageName.toList := by
  obtain ⟨name, named, noDot⟩ := h
  have same : part.pageName = name := by rw [pageName, named]
  rw [same]
  exact ⟨named, noDot⟩

namespace Page

/-! ### The names below the output -/

/-- The single name in a path. -/
def fixed (text : String) : FileName :=
  (Path.ofText text).units

/-- The names of the navigation of a topic. -/
def belowNav (topic : Topic) : List FileName :=
  [fixed "partials", fixed (navName topic.qualifier)]

/-- The names of the overview of a topic. -/
def belowOverview (topic : Topic) : List FileName :=
  [fixed "pages", fixed (overviewName topic.qualifier)]

/-- The names of the page of a package. -/
def belowPackage (topic : Topic) (name : String) : List FileName :=
  fixed "pages" :: fixed "packages" :: (Path.ofText (packageName topic.qualifier name)).names

section

variable {topic other : Topic} {name another : String} {out : Path}

theorem belowNav_inj : ∀ a ∈ Topic.all, ∀ b ∈ Topic.all, belowNav a = belowNav b → a = b := by
  decide +kernel

theorem belowOverview_inj : ∀ a ∈ Topic.all, ∀ b ∈ Topic.all,
    belowOverview a = belowOverview b → a = b := by
  decide +kernel

theorem fixed_partials_ne_pages : fixed "partials" ≠ fixed "pages" := by
  decide

theorem fixed_overviewName_ne : ∀ topic ∈ Topic.all,
    fixed (overviewName topic.qualifier) ≠ fixed "packages" := by
  decide +kernel

theorem belowNav_ne_belowOverview (topic other : Topic) : belowNav topic ≠ belowOverview other :=
  fun same => fixed_partials_ne_pages (List.cons.inj same).1

theorem belowNav_ne_belowPackage (topic other : Topic) (name : String) :
    belowNav topic ≠ belowPackage other name :=
  fun same => fixed_partials_ne_pages (List.cons.inj same).1

theorem belowOverview_ne_belowPackage (mem : topic ∈ Topic.all) (other : Topic) (name : String) :
    belowOverview topic ≠ belowPackage other name := by
  intro same
  have later := (List.cons.inj same).2
  exact fixed_overviewName_ne topic mem (List.cons.inj later).1

theorem names_of_belowPackage (same : belowPackage topic name = belowPackage other another) :
    (Path.ofText (packageName topic.qualifier name)).names =
      (Path.ofText (packageName other.qualifier another)).names :=
  (List.cons.inj (List.cons.inj same).2).2

theorem belowPackage_inj (mem : topic ∈ Topic.all) :
    belowPackage topic name = belowPackage topic another ↔
      oneSeparator (Path.ofText name).units = oneSeparator (Path.ofText another).units := by
  rw [← names_packageName_inj mem]
  exact ⟨names_of_belowPackage, fun same => congrArg (fixed "pages" :: fixed "packages" :: ·) same⟩

/-- Packages have one page just if they are of one topic and their names stand for one page. -/
theorem belowPackage_eq_iff (mem : topic ∈ Topic.all) (mem' : other ∈ Topic.all) :
    belowPackage topic name = belowPackage other another ↔
      topic = other ∧ oneSeparator (Path.ofText name).units = oneSeparator (Path.ofText another).units := by
  constructor
  · intro same
    obtain rfl := eq_of_names_packageName mem mem' (names_of_belowPackage same)
    exact ⟨rfl, (belowPackage_inj mem).1 same⟩
  · rintro ⟨rfl, same⟩
    exact (belowPackage_inj mem).2 same

/-- The names of the pages of a topic's document. -/
def belows (topic : Topic) (packages : List Section) : List (List FileName) :=
  belowNav topic :: belowOverview topic ::
    packages.map fun part => belowPackage topic part.pageName

theorem disjoint_belows (mem : topic ∈ Topic.all) (mem' : other ∈ Topic.all) (apart : topic ≠ other)
    (packages others : List Section) :
    List.Disjoint (belows topic packages) (belows other others) := by
  intro names inFirst inSecond
  simp only [belows, List.mem_cons, List.mem_map] at inFirst inSecond
  rcases inFirst with rfl | rfl | ⟨part, -, rfl⟩
  · rcases inSecond with same | same | ⟨part, -, same⟩
    · exact apart (belowNav_inj topic mem other mem' same)
    · exact belowNav_ne_belowOverview topic other same
    · exact belowNav_ne_belowPackage topic other _ same.symm
  · rcases inSecond with same | same | ⟨part, -, same⟩
    · exact belowNav_ne_belowOverview other topic same.symm
    · exact apart (belowOverview_inj topic mem other mem' same)
    · exact belowOverview_ne_belowPackage mem other _ same.symm
  · rcases inSecond with same | same | ⟨part, -, same⟩
    · exact belowNav_ne_belowPackage other topic _ same.symm
    · exact belowOverview_ne_belowPackage mem' topic _ same.symm
    · exact apart (eq_of_names_packageName mem mem' (names_of_belowPackage same.symm))

theorem nodup_belows_iff (mem : topic ∈ Topic.all) (packages : List Section) :
    (belows topic packages).Nodup ↔ (packages.map Section.pageKey).Nodup := by
  have nav : belowNav topic ∉ belowOverview topic ::
      packages.map fun part => belowPackage topic part.pageName := by
    simp only [List.mem_cons, List.mem_map, not_or, not_exists, not_and]
    exact ⟨belowNav_ne_belowOverview topic topic,
      fun part _ same => belowNav_ne_belowPackage topic topic _ same.symm⟩
  have overview : belowOverview topic ∉
      packages.map fun part => belowPackage topic part.pageName := by
    simp only [List.mem_map, not_exists, not_and]
    exact fun part _ same => belowOverview_ne_belowPackage mem topic _ same.symm
  rw [belows, List.nodup_cons, List.nodup_cons, and_iff_right nav, and_iff_right overview, List.Nodup,
    List.Nodup, List.pairwise_map, List.pairwise_map]
  exact List.Pairwise.iff fun a b => not_congr (belowPackage_inj mem)

/-- The pages of all topics are apart if those of the packages of each topic are. -/
theorem nodup_flatMap_belows_iff (packages : Topic → List Section) :
    (Topic.all.flatMap fun topic => belows topic (packages topic)).Nodup ↔
      ∀ topic ∈ Topic.all, ((packages topic).map Section.pageKey).Nodup := by
  have apart : Topic.all.Nodup := by decide +kernel
  rw [List.nodup_flatMap, and_iff_left]
  · exact forall₂_congr fun topic mem => nodup_belows_iff mem (packages topic)
  · exact apart.pairwise_of_forall_ne fun a mem b mem' other =>
      disjoint_belows mem mem' other (packages a) (packages b)

end

end Page

namespace Site

open Page (belowNav belowOverview belowPackage belows fixed)

/-- A page is at the names below the output. -/
structure PageAt (out path : Path) (below : List FileName) : Prop where
  isBelow : path.Extends out below
  nonempty : below ≠ []
  named : path.units.getLast? ≠ some Path.separator

section

variable {out base path other : Path} {below another : List FileName} {topic : Topic}
  {document : Document} {renderer : PageRenderer}

/-- Pages are at one path just when they are at the same names. -/
theorem PageAt.components_eq_iff (h : PageAt out path below) (h' : PageAt out other another) :
    path.components = other.components ↔ below = another := by
  rw [h.isBelow.components, h'.isBelow.components, List.append_cancel_left_eq]
  exact (List.map_injective_iff.2 fun _ _ => Path.Component.name.inj).eq_iff

theorem pageAt_join (h : base.Extends out below) (plain : path.front = [])
    (down : ∀ name ∈ path.names, Path.LeadsDown name) (nonempty : path.names ≠ [])
    (named : path.units.getLast? ≠ some Path.separator) :
    PageAt out (base.join path) (below ++ path.names) := by
  refine ⟨h.join plain down, by simp [nonempty], ?_⟩
  have written : path.units ≠ [] := fun nothing => by
    simp [Path.names, Path.segments_of_units_eq_nil nothing] at nonempty
  rwa [Path.getLast?_join written]

/-- A path that is one name, which leads down. -/
structure IsFixed (text : String) : Prop where
  plain : (Path.ofText text).front = []
  names : (Path.ofText text).names = [fixed text]
  down : Path.LeadsDown (fixed text)
  named : (Path.ofText text).units.getLast? ≠ some Path.separator

instance (text : String) : Decidable (IsFixed text) :=
  decidable_of_iff ((Path.ofText text).front = [] ∧ (Path.ofText text).names = [fixed text] ∧
      Path.LeadsDown (fixed text) ∧ (Path.ofText text).units.getLast? ≠ some Path.separator)
    ⟨fun ⟨plain, names, down, named⟩ => ⟨plain, names, down, named⟩,
      fun h => ⟨h.plain, h.names, h.down, h.named⟩⟩

theorem IsFixed.extends_join {text : String} (h : IsFixed text) (isBelow : base.Extends out below) :
    (base.join (.ofText text)).Extends out (below ++ [fixed text]) := by
  have joined := isBelow.join h.plain (by simp [h.names, h.down])
  rwa [h.names] at joined

theorem IsFixed.pageAt {text : String} (h : IsFixed text) (isBelow : base.Extends out below) :
    PageAt out (base.join (.ofText text)) (below ++ [fixed text]) := by
  have joined := pageAt_join isBelow h.plain (by simp [h.names, h.down]) (by simp [h.names]) h.named
  rwa [h.names] at joined

theorem isFixed_directories :
    IsFixed "partials" ∧ IsFixed "pages" ∧ IsFixed "packages" := by
  decide

theorem isFixed_pages : ∀ topic ∈ Topic.all,
    IsFixed (Page.navName topic.qualifier) ∧ IsFixed (Page.overviewName topic.qualifier) := by
  decide +kernel

theorem extends_partialsDirectory (out : Path) :
    (Page.partialsDirectory out).Extends out [fixed "partials"] :=
  isFixed_directories.1.extends_join (.refl out)

theorem extends_pagesDirectory (out : Path) :
    (Page.pagesDirectory out).Extends out [fixed "pages"] :=
  isFixed_directories.2.1.extends_join (.refl out)

theorem extends_packagesDirectory (out : Path) :
    (Page.packagesDirectory out).Extends out [fixed "pages", fixed "packages"] :=
  isFixed_directories.2.2.extends_join (extends_pagesDirectory out)

theorem pageAt_packagePage (mem : document.topic ∈ Topic.all) {part : Section} (named : part.Named) :
    PageAt out (packagePage out renderer document part).path
      (belowPackage document.topic part.pageName) := by
  obtain ⟨name, noDot⟩ := named.packageName_eq
  rw [packagePage, name]
  refine pageAt_join (extends_packagesDirectory out) (Page.front_packageName mem _)
    (Page.leadsDown_packageName mem noDot) ?_ (Page.getLast?_packageName _ _)
  show Path.namesIn _ ≠ []
  rw [Path.namesIn_eq, if_neg (Page.firstPiece_packageName_ne_nil mem _)]
  exact List.cons_ne_nil _ _

/-- The pages of a document are at its names, in order. -/
theorem forall₂_pageAt (mem : document.topic ∈ Topic.all)
    (named : ∀ part ∈ document.packages, part.Named) :
    List.Forall₂ (fun page below => PageAt out page.path below) (pages out renderer document)
      (belows document.topic document.packages) := by
  obtain ⟨nav, overview⟩ := isFixed_pages document.topic mem
  refine .cons (nav.pageAt (extends_partialsDirectory out))
    (.cons (overview.pageAt (extends_pagesDirectory out)) ?_)
  rw [List.forall₂_map_left_iff, List.forall₂_map_right_iff, List.forall₂_same]
  exact fun part inDocument => pageAt_packagePage mem (named part inDocument)

end

end Site

end PolicyPages
