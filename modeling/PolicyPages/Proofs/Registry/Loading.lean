import PolicyPages.Proofs.Discovery
import PolicyPages.Proofs.Files.Children
import PolicyPages.Proofs.Registry
import PolicyPages.Registry.Loading

/-!
# Loading from several roots

Loading is settled root by root and module by module. It succeeds just when no walk stops and every
module that is found can be loaded, and the registry is then that of these modules in order
(`load_eq_ok_iff`). Else it fails either as the first walk that stops, or, where none does, as the
first module that cannot be loaded (`load_eq_error_iff`); a walk that stops comes before every module,
also before those below earlier roots.

So the registry of two lists of roots holds the modules of one after those of the other, and looks up a
package among the first ones before the second ones (`load_append_roots`).
-/

namespace PolicyPages

open Files (Tree)

variable {tree : Tree} {settings : DiscoverySettings} {found : FoundModule}
  {all : List FoundModule} {failure : Failure}

/-! ### One module -/

/-- A module cannot be loaded, since its file cannot be read or its text breaks the rules. -/
inductive FoundModule.Fails (tree : Tree) (found : FoundModule) : Failure → Prop where
  | unread {error} : tree.read found.path = .error error →
      Fails tree found (.discovery found.path (.file error))
  | refused {content error} : tree.read found.path = .ok content →
      Source.annotations found.file content = .error error → Fails tree found (.parse error)

theorem FoundModule.load_eq_error_iff :
    found.load tree = .error failure ↔ found.Fails tree failure := by
  unfold FoundModule.load
  constructor
  · intro fails
    split at fails
    · rename_i error unread
      rw [← Except.error.inj fails]
      exact .unread unread
    · rename_i content read
      split at fails
      · rename_i error refused
        rw [← Except.error.inj fails]
        exact .refused read refused
      · contradiction
  · intro fails
    cases fails with
    | unread unread => rw [unread]
    | refused read refused => simp only [read, refused]

/-- A module can be loaded. -/
def FoundModule.Loads (tree : Tree) (found : FoundModule) : Prop :=
  ∃ module, found.load tree = .ok module

namespace Registry

variable {registry : Registry} {modules : List AnnotatedModule} {roots : List Path}

/-! ### The modules in order -/

/-- The modules that are found are loaded one by one. -/
def LoadsEach (tree : Tree) (all : List FoundModule) (modules : List AnnotatedModule) : Prop :=
  List.Forall₂ (fun found module => found.load tree = .ok module) all modules

theorem addFound_eq_ok_iff {result : Registry} :
    addFound tree registry all = .ok result ↔
      ∃ modules, LoadsEach tree all modules ∧ result = modules.foldl insert registry := by
  induction all generalizing registry with
  | nil =>
    constructor
    · intro done
      exact ⟨[], .nil, (Except.ok.inj done).symm⟩
    · rintro ⟨modules, each, rfl⟩
      cases each
      rfl
  | cons found rest ih =>
    rw [addFound, bind_eq_ok_iff]
    constructor
    · rintro ⟨module, loaded, later⟩
      obtain ⟨modules, each, rfl⟩ := ih.1 later
      exact ⟨module :: modules, .cons loaded each, rfl⟩
    · rintro ⟨modules, each, rfl⟩
      cases each with
      | cons loaded each => exact ⟨_, loaded, ih.2 ⟨_, each, rfl⟩⟩

/-- Modules are added up to the first that cannot be loaded. Neither what is loaded before it nor what
is found after it changes the failure. -/
theorem addFound_eq_error_iff :
    addFound tree registry all = .error failure ↔
      ∃ before found after, all = before ++ found :: after ∧
        (∀ other ∈ before, other.Loads tree) ∧ found.Fails tree failure := by
  induction all generalizing registry with
  | nil => simp [addFound]
  | cons found rest ih =>
    rw [addFound, bind_eq_error_iff]
    constructor
    · rintro (fails | ⟨module, loaded, later⟩)
      · exact ⟨[], found, rest, rfl, by simp, FoundModule.load_eq_error_iff.1 fails⟩
      · obtain ⟨before, first, after, rfl, load, fails⟩ := ih.1 later
        exact ⟨found :: before, first, after, rfl, List.forall_mem_cons.2 ⟨⟨module, loaded⟩, load⟩,
          fails⟩
    · rintro ⟨before, first, after, whole, load, fails⟩
      cases before with
      | nil =>
        obtain ⟨rfl, rfl⟩ := List.cons.inj whole
        exact .inl (FoundModule.load_eq_error_iff.2 fails)
      | cons head tail =>
        obtain ⟨rfl, rfl⟩ := List.cons.inj whole
        obtain ⟨⟨module, loaded⟩, load⟩ := List.forall_mem_cons.1 load
        exact .inr ⟨module, loaded, ih.2 ⟨tail, first, after, rfl, load, fails⟩⟩

/-! ### All roots -/

/-- The walk from a root reaches its end. -/
def Walks (tree : Tree) (root : Path) : Prop :=
  (tree.walk root).stop = none

/-- The modules below several roots, in the order of discovery. -/
def foundBelow (tree : Tree) (settings : DiscoverySettings) (roots : List Path) :
    List FoundModule :=
  roots.flatMap (Discovery.modulesBelow tree settings)

/-- No walk from the roots stops, and the modules below them are loaded one by one. -/
def LoadsBelow (tree : Tree) (settings : DiscoverySettings) (roots : List Path)
    (modules : List AnnotatedModule) : Prop :=
  (∀ root ∈ roots, Walks tree root) ∧ LoadsEach tree (foundBelow tree settings roots) modules

theorem load_eq_ok_iff :
    load tree settings roots = .ok registry ↔
      ∃ modules, LoadsBelow tree settings roots modules ∧ registry = ofModules modules := by
  rw [load, bind_eq_ok_iff]
  constructor
  · rintro ⟨all, discovered, added⟩
    obtain ⟨walks, rfl⟩ := Discovery.modules_eq_ok_iff.1 discovered
    obtain ⟨modules, each, same⟩ := addFound_eq_ok_iff.1 added
    exact ⟨modules, ⟨walks, each⟩, same⟩
  · rintro ⟨modules, ⟨walks, each⟩, same⟩
    exact ⟨_, Discovery.modules_eq_ok_iff.2 ⟨walks, rfl⟩, addFound_eq_ok_iff.2 ⟨modules, each, same⟩⟩

/-- How loading fails. -/
inductive LoadingFails (tree : Tree) (settings : DiscoverySettings) (roots : List Path) :
    Failure → Prop where
  /-- As the first walk that stops, over all roots in order. -/
  | discovery {before root after error} : roots = before ++ root :: after →
      (∀ other ∈ before, Walks tree other) → (tree.walk root).stop = some error →
      LoadingFails tree settings roots (.discovery error.path (.walk error))
  /-- As the first module that cannot be loaded, in the order of discovery, where no walk stops. -/
  | module {before found after failure} : (∀ root ∈ roots, Walks tree root) →
      foundBelow tree settings roots = before ++ found :: after →
      (∀ other ∈ before, other.Loads tree) → found.Fails tree failure →
      LoadingFails tree settings roots failure

theorem load_eq_error_iff :
    load tree settings roots = .error failure ↔ LoadingFails tree settings roots failure := by
  rw [load, bind_eq_error_iff]
  constructor
  · rintro (stops | ⟨all, discovered, fails⟩)
    · obtain ⟨before, root, after, error, rfl, walks, stop, rfl⟩ :=
        Discovery.modules_eq_error_iff.1 stops
      exact .discovery rfl walks stop
    · obtain ⟨walks, rfl⟩ := Discovery.modules_eq_ok_iff.1 discovered
      obtain ⟨before, found, after, whole, load, fails⟩ := addFound_eq_error_iff.1 fails
      exact .module walks whole load fails
  · intro fails
    cases fails with
    | discovery whole walks stop =>
      exact .inl (Discovery.modules_eq_error_iff.2 ⟨_, _, _, _, whole, walks, stop, rfl⟩)
    | module walks whole load fails =>
      refine .inr ⟨_, Discovery.modules_eq_ok_iff.2 ⟨walks, rfl⟩, ?_⟩
      exact addFound_eq_error_iff.2 ⟨_, _, _, whole, load, fails⟩

/-! ### One list of roots after another -/

theorem package?_ofModules_append (front back : List AnnotatedModule) (path : String) :
    (ofModules (front ++ back)).package? path =
      ((ofModules front).package? path).or ((ofModules back).package? path) := by
  simp only [package?_ofModules, List.flatMap_append, firstPackage?, List.find?_append]

theorem modules_ofModules_append (front back : List AnnotatedModule) :
    (ofModules (front ++ back)).modules = (ofModules front).modules ++ (ofModules back).modules := by
  simp only [modules_ofModules, List.filter_append]

/-- Below two lists of roots the modules of both are loaded, those of one after those of the other. -/
theorem loadsBelow_append_iff {front back : List Path} :
    LoadsBelow tree settings (front ++ back) modules ↔
      ∃ first second, LoadsBelow tree settings front first ∧
        LoadsBelow tree settings back second ∧ modules = first ++ second := by
  have cut : foundBelow tree settings (front ++ back) =
      foundBelow tree settings front ++ foundBelow tree settings back := List.flatMap_append
  unfold LoadsBelow LoadsEach
  rw [cut, List.forall_mem_append]
  constructor
  · rintro ⟨⟨inFront, inBack⟩, each⟩
    have loadsFront := List.forall₂_take (foundBelow tree settings front).length each
    have loadsBack := List.forall₂_drop (foundBelow tree settings front).length each
    rw [List.take_left] at loadsFront
    rw [List.drop_left] at loadsBack
    exact ⟨_, _, ⟨inFront, loadsFront⟩, ⟨inBack, loadsBack⟩, (List.take_append_drop _ _).symm⟩
  · rintro ⟨first, second, ⟨inFront, loadsFront⟩, ⟨inBack, loadsBack⟩, rfl⟩
    exact ⟨⟨inFront, inBack⟩, List.rel_append loadsFront loadsBack⟩

/-- Loading two lists of roots at once succeeds just when loading each of them does. The registry then
holds the modules of the first list before those of the second, and a package is looked up in that
order. Where loading fails, it does so as the first walk that stops, or else as the first module that
cannot be loaded. -/
theorem load_append_roots (tree : Tree) (settings : DiscoverySettings) :
    (∀ front back,
      (∃ registry, load tree settings (front ++ back) = .ok registry) ↔
        (∃ first, load tree settings front = .ok first) ∧
          ∃ second, load tree settings back = .ok second) ∧
    (∀ front back first second registry, load tree settings front = .ok first →
      load tree settings back = .ok second → load tree settings (front ++ back) = .ok registry →
        registry.modules = first.modules ++ second.modules ∧
          ∀ path, registry.package? path = (first.package? path).or (second.package? path)) ∧
    ∀ roots failure,
      load tree settings roots = .error failure ↔ LoadingFails tree settings roots failure := by
  refine ⟨fun front back => ⟨?_, ?_⟩, ?_, fun roots failure => load_eq_error_iff⟩
  · rintro ⟨registry, loaded⟩
    obtain ⟨modules, below, -⟩ := load_eq_ok_iff.1 loaded
    obtain ⟨first, second, inFront, inBack, -⟩ := loadsBelow_append_iff.1 below
    exact ⟨⟨_, load_eq_ok_iff.2 ⟨first, inFront, rfl⟩⟩, _, load_eq_ok_iff.2 ⟨second, inBack, rfl⟩⟩
  · rintro ⟨⟨_, loadedFront⟩, _, loadedBack⟩
    obtain ⟨first, inFront, -⟩ := load_eq_ok_iff.1 loadedFront
    obtain ⟨second, inBack, -⟩ := load_eq_ok_iff.1 loadedBack
    exact ⟨_, load_eq_ok_iff.2 ⟨_, loadsBelow_append_iff.2 ⟨first, second, inFront, inBack, rfl⟩, rfl⟩⟩
  · intro front back first second registry loadedFront loadedBack loaded
    obtain ⟨modules, below, rfl⟩ := load_eq_ok_iff.1 loaded
    obtain ⟨inFirst, inSecond, inFront, inBack, rfl⟩ := loadsBelow_append_iff.1 below
    -- What a list of roots loads is one registry only.
    have same := load_eq_ok_iff.2 ⟨inFirst, inFront, rfl⟩
    obtain rfl := Except.ok.inj (loadedFront.symm.trans same)
    have same := load_eq_ok_iff.2 ⟨inSecond, inBack, rfl⟩
    obtain rfl := Except.ok.inj (loadedBack.symm.trans same)
    exact ⟨modules_ofModules_append _ _, package?_ofModules_append _ _⟩

/-- Two directories with modules of one package, and one with a module that breaks the rules. -/
def rootedFiles : Tree where
  entries :=
    [(Files.placeAt "a", .directory),
      (Files.placeAt "a/p.rego", .file (.text "# METADATA\n# title: A\npackage p\n")),
      (Files.placeAt "b", .directory),
      (Files.placeAt "b/p.rego", .file (.text "# METADATA\n# title: B\npackage p\n")),
      (Files.placeAt "c", .directory),
      (Files.placeAt "c/p.rego", .file (.text "# METADATA\n"))]
  workingDirectory := []

/-- Whether loading fails below a path, in a walk. -/
def stopsAt (loaded : Except Failure Registry) (path : Path) : Bool :=
  match loaded with
  | .error (.discovery stopped (.walk _)) => stopped = path
  | _ => false

/-- The package of both directories is that of the first one. A root that is missing is reported before
a module that breaks the rules, also if it comes later. -/
theorem load_append_roots_sample :
    let load (roots : List String) :=
      load rootedFiles Settings.default.discovery (roots.map Path.ofText)
    (∃ first second registry, load ["a"] = .ok first ∧ load ["b"] = .ok second ∧
      load ["a", "b"] = .ok registry ∧ registry.modules = first.modules ++ second.modules ∧
      (∀ path, registry.package? path = (first.package? path).or (second.package? path)) ∧
      registry.annotations.map (·.title) = ["A", "B"] ∧
      (registry.package? "data.p").map (·.title) = some "A") ∧
    ∃ error, LoadingFails rootedFiles Settings.default.discovery (["c", "d"].map Path.ofText)
      (.discovery (.ofText "d") (.walk error)) := by
  intro load
  have laws := load_append_roots rootedFiles Settings.default.discovery
  have evaluated : (load ["a", "b"]).toOption.any (fun registry =>
        registry.annotations.map (·.title) = ["A", "B"] ∧
          (registry.package? "data.p").map (·.title) = some "A") = true ∧
      stopsAt (load ["c", "d"]) (.ofText "d") = true := by
    decide +kernel
  obtain ⟨titled, stops⟩ := evaluated
  refine ⟨?_, ?_⟩
  · cases loaded : load ["a", "b"] with
    | error failure =>
      rw [loaded] at titled
      contradiction
    | ok registry =>
      obtain ⟨⟨first, loadedFirst⟩, second, loadedSecond⟩ :=
        (laws.1 [.ofText "a"] [.ofText "b"]).1 ⟨registry, loaded⟩
      obtain ⟨modules, packages⟩ := laws.2.1 _ _ _ _ _ loadedFirst loadedSecond loaded
      rw [loaded] at titled
      obtain ⟨titles, title⟩ := of_decide_eq_true titled
      exact ⟨first, second, registry, loadedFirst, loadedSecond, rfl, modules, packages, titles,
        title⟩
  · unfold stopsAt at stops
    split at stops
    · rename_i stopped error fails
      obtain rfl := of_decide_eq_true stops
      exact ⟨error, (laws.2.2 _ _).1 fails⟩
    · contradiction

end Registry

end PolicyPages
