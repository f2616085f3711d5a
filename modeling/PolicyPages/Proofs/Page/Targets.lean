import PolicyPages.Proofs.Page.Links
import PolicyPages.Proofs.Site

/-!
# Links to the pages of packages

A document links to the page of a package from its navigation, from the table of packages in its
overview, and from the listings of collections there. `linked_page_written` is that the pages of
packages that are linked to are written, when all documents are. A rule that is declared in the module of
a collection is apart: it is listed with a link like any other, but no topic documents it, and its
package has no page (`not_every_linked_page_written`).
-/

namespace PolicyPages.AsciiDoc

/-- The document shows a link to the page of a package: in the entry of the package in its navigation,
in the row of the package in its overview, or for a member of a collection that counts. -/
inductive LinksTo (document : Document) (counts : Member → Prop) (page : String) : Prop
  | entry {part : Section} (mem : part ∈ document.packages)
      (shown : navPackage document.topic.qualifier part =
        .ok ("*** " ++ link ("packages/" ++ page) part.package.title))
  | row {part : Section} {name id : String} {rest : Lines} (mem : part ∈ document.packages)
      (named : part.package.packageName = .ok name) (anchored : part.package.anchor = .ok id)
      (shown : packageRow document.topic.qualifier part =
        .ok (("| " ++ blockId id ++ link ("packages/" ++ page) name) :: rest))
  | member {listing : Listing} {member : Member} {id : String}
      (listed : listing ∈ document.collections) (mem : member ∈ listing.members)
      (counts : counts member) (anchored : member.rule.anchor = .ok id)
      (shown : memberLink member =
        .ok (link ("packages/" ++ page ++ "#" ++ id) (memberLabel member)))

section

variable {qualifier page name id : String} {part : Section} {member : Member}

theorem link_left_inj {target other label : String} :
    link target label = link other label ↔ target = other := by
  rw [link, link, String.append_left_inj, String.append_left_inj, String.append_left_inj,
    String.append_right_inj]

/-- The entry of a package names the page of the package. -/
theorem navPackage_eq_ok (shown : navPackage qualifier part =
      .ok ("*** " ++ link ("packages/" ++ page) part.package.title)) :
    ∃ name, part.package.packageName = .ok name ∧ page = Page.packageName qualifier name := by
  unfold navPackage at shown
  obtain ⟨name, named, shown⟩ := bind_eq_ok_iff.1 shown
  have same := Except.ok.inj shown
  rw [String.append_right_inj, link_left_inj, packagePage, String.append_right_inj] at same
  exact ⟨name, named, same.symm⟩

theorem eq_of_packageRow_eq_ok {rest : Lines} (named : part.package.packageName = .ok name)
    (anchored : part.package.anchor = .ok id)
    (shown : packageRow qualifier part =
      .ok (("| " ++ blockId id ++ link ("packages/" ++ page) name) :: rest)) :
    page = Page.packageName qualifier name := by
  simp only [packageRow, named, anchored, bind, Except.bind, pure, Except.pure, Except.ok.injEq,
    List.cons.injEq, String.append_right_inj, link_left_inj, packagePage] at shown
  exact shown.1.symm

/-- A member with a link is in a topic. -/
theorem exists_of?_eq_some {target : String}
    (shown : memberLink member = .ok (link target (memberLabel member))) :
    ∃ home, Topic.of? member.rule.location.file = some home := by
  cases found : Topic.of? member.rule.location.file with
  | some home => exact ⟨home, rfl⟩
  | none =>
    have plain : memberLink member = .ok (memberLabel member) := by
      simp only [memberLink, found]
      rfl
    rw [plain, Except.ok.injEq] at shown
    -- The label alone is shorter than a link with it.
    have lengths := congrArg String.length shown
    simp only [link, String.length_append] at lengths
    have bracket : "[".length = 1 := rfl
    omega

end

section

variable {modules : List AnnotatedModule} {topic : Topic} {page id : String}

/-- The page that the link of a member names is that of a section. -/
theorem exists_section_of_memberLink (extracted : ∀ module ∈ modules, module.IsExtractedInPlace)
    {listing : Listing} {member : Member}
    (listed : listing ∈ (Document.build (.ofModules modules)
      (.ofRegistry (.ofModules modules)) topic).collections)
    (mem : member ∈ listing.members) (ordinary : member.rule.inCollectionModule = false)
    (anchored : member.rule.anchor = .ok id)
    (shown : memberLink member =
      .ok (link ("packages/" ++ page ++ "#" ++ id) (memberLabel member))) :
    ∃ home ∈ Topic.all, ∃ part ∈ (Document.build (.ofModules modules)
        (.ofRegistry (.ofModules modules)) home).packages,
      ∃ name, part.package.packageName = .ok name ∧
        page = Page.packageName home.qualifier name := by
  obtain ⟨home, found⟩ := exists_of?_eq_some shown
  obtain ⟨atHome, inHome⟩ := Topic.of?_eq_some_iff.1 found
  obtain ⟨part, hits⟩ := hitsSection_of_member extracted listed mem ordinary anchored atHome inHome
  obtain ⟨name, named, linked⟩ := hits.link
  refine ⟨home, atHome, part, hits.mem, name, named, ?_⟩
  rw [linked, Except.ok.injEq, link_left_inj, String.append_left_inj, String.append_left_inj]
    at shown
  exact ((String.append_right_inj _).1 shown).symm

/-- If all documents are written, so are the pages of packages that they link to. -/
theorem linked_page_written (extracted : ∀ module ∈ modules, module.IsExtractedInPlace)
    {out : Path} {sourceUrl : Option String} {before after : Session} {written : List (List Path)}
    (run : ((Generation.documents (.ofModules modules) (.ofRegistry (.ofModules modules))).mapM
      (Site.writeTopic out (renderer sourceUrl))).Yields before written after)
    (mem : topic ∈ Topic.all)
    (links : LinksTo (Document.build (.ofModules modules) (.ofRegistry (.ofModules modules)) topic)
      (fun member => member.rule.inCollectionModule = false) page) :
    (Page.packagesDirectory out).join (.ofText page) ∈ written.flatten := by
  cases links with
  | entry memPart shown =>
    obtain ⟨name, named, rfl⟩ := navPackage_eq_ok shown
    exact Site.packagePage_mem_written run mem memPart named
  | row memPart named anchored shown =>
    obtain rfl := eq_of_packageRow_eq_ok named anchored shown
    exact Site.packagePage_mem_written run mem memPart named
  | member listed memMember ordinary anchored shown =>
    obtain ⟨home, atHome, part, memPart, name, named, rfl⟩ :=
      exists_section_of_memberLink extracted listed memMember ordinary anchored shown
    exact Site.packagePage_mem_written run atHome memPart named

end

/-- Whether a collection of the document shows a link to a place on the page of a package. -/
def listsLink (document : Document) (counts : Member → Bool) (page id : String) : Bool :=
  document.collections.any fun listing => listing.members.any fun member =>
    counts member && member.rule.anchor == .ok id &&
      memberLink member == .ok (link ("packages/" ++ page ++ "#" ++ id) (memberLabel member))

theorem linksTo_of_listsLink {document : Document} {counts : Member → Bool} {page id : String}
    (h : listsLink document counts page id = true) :
    LinksTo document (counts · = true) page := by
  simp only [listsLink, List.any_eq_true, Bool.and_eq_true, beq_iff_eq] at h
  obtain ⟨listing, listed, member, mem, ⟨counted, anchored⟩, shown⟩ := h
  exact .member listed mem counted anchored shown

/-- The sample is written, and links to the page of a package in another topic. -/
theorem linked_page_written_sample :
    let registry := Registry.ofModules sampleModules
    let membership := Membership.ofRegistry registry
    ∃ written after, ((Generation.documents registry membership).mapM
        (Site.writeTopic (.ofText "out") (renderer none))).Yields (.start .empty) written after ∧
      ∃ topic ∈ Topic.all, LinksTo (Document.build registry membership topic)
          (fun member => member.rule.inCollectionModule = false) "task_lib.adoc" ∧
        (Page.packagesDirectory (.ofText "out")).join (.ofText "task_lib.adoc") ∈
          written.flatten := by
  intro registry membership
  have evaluated :
      (((Generation.documents registry membership).mapM
        (Site.writeTopic (.ofText "out") (renderer none))).outcome
          (.start .empty)).1.toOption.any (fun _ => true) = true ∧
      (Topic.all.any fun topic => listsLink (Document.build registry membership topic)
        (fun member => !member.rule.inCollectionModule) "task_lib.adoc" "lib__b") = true := by
    decide +kernel
  obtain ⟨written, after, run, _⟩ := Action.exists_yields_of_any evaluated.1
  obtain ⟨topic, mem, lists⟩ := List.any_eq_true.1 evaluated.2
  have links : LinksTo (Document.build registry membership topic)
      (fun member => member.rule.inCollectionModule = false) "task_lib.adoc" := by
    simpa using linksTo_of_listsLink lists
  exact ⟨written, after, run, topic, mem, links,
    linked_page_written isExtractedInPlace_of_mem_sampleModules run mem links⟩

/-- The module of a collection with a rule of its own, which is tagged. -/
def sampleCollection : List AnnotatedModule :=
  (AnnotatedModule.ofText? (.ofText "policy/release/collection/minimal.rego") <|
    "# METADATA\n# title: minimal\npackage policy.release.collection.minimal\n" ++
    "# METADATA\n# title: Signed\n# custom: {short_name: signed, collections: [minimal]}\n" ++
    "deny if x\n").toList

/-- A link that an overview shows for the rule of a collection's own module leads to no page. -/
theorem not_every_linked_page_written :
    ¬ ∀ modules : List AnnotatedModule, (∀ module ∈ modules, module.IsExtractedInPlace) →
      ∀ out sourceUrl before written after,
        ((Generation.documents (.ofModules modules) (.ofRegistry (.ofModules modules))).mapM
          (Site.writeTopic out (renderer sourceUrl))).Yields before written after →
        ∀ topic ∈ Topic.all, ∀ page,
          LinksTo (Document.build (.ofModules modules) (.ofRegistry (.ofModules modules)) topic)
            (fun _ => True) page →
          (Page.packagesDirectory out).join (.ofText page) ∈ written.flatten := by
  intro always
  let registry := Registry.ofModules sampleCollection
  let membership := Membership.ofRegistry registry
  let page := (Page.packagesDirectory (.ofText "out")).join (.ofText "release_minimal.adoc")
  have evaluated :
      (((Generation.documents registry membership).mapM
        (Site.writeTopic (.ofText "out") (renderer none))).outcome
          (.start .empty)).1.toOption.any (fun written => !written.flatten.contains page) = true ∧
      (Topic.all.any fun topic => listsLink (Document.build registry membership topic)
        (fun _ => true) "release_minimal.adoc" "minimal__signed") = true := by
    decide +kernel
  obtain ⟨written, after, run, missing⟩ := Action.exists_yields_of_any evaluated.1
  obtain ⟨topic, mem, lists⟩ := List.any_eq_true.1 evaluated.2
  have extracted : ∀ module ∈ sampleCollection, module.IsExtractedInPlace := by
    intro module mem
    exact AnnotatedModule.isExtractedInPlace_of_ofText? (Option.mem_toList.1 mem)
  have links : LinksTo (Document.build registry membership topic) (fun _ => True)
      "release_minimal.adoc" := by
    simpa using linksTo_of_listsLink lists
  have present : page ∈ written.flatten :=
    always sampleCollection extracted _ _ _ _ _ run topic mem _ links
  simp [present] at missing

end PolicyPages.AsciiDoc
