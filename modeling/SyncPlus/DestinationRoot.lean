import SyncPlus.RunPaths

/-!
# The destination root over a run

A One-Way run takes its destination root from the file system: the folder below
the selected destination that has the source's name, when it is a directory,
and the selected destination otherwise. The root is taken again after the run,
when completion is reconciled. What the run puts below its root is described by
what is installed at each path (`execute`); at the path of that folder it can
be one thing only (`execute_child`), so the two roots differ exactly when this
turns a folder that was not there into a directory (`destination_root_stable_iff`).
-/

namespace SyncPlus

/-! ## The disk below the destination -/

inductive DiskNode where
  | directory
  | file
  | link (target : PathBuf)
  | other
  deriving DecidableEq

/-- What is on the disk, by the names of a path below the selected
destination. -/
abbrev Disk := List Name → Option DiskNode

/-- Whether a link at a place leads to a directory, on a disk. -/
abbrev Links := Disk → List Name → PathBuf → Bool

namespace Disk

/-- `Path::is_dir`, which follows links. -/
def isDir (links : Links) (disk : Disk) (names : List Name) : Bool :=
  match disk names with
  | some .directory => true
  | some (.link target) => links disk names target
  | _ => false

/-- `Path::is_dir` on absolute paths: the disk answers below the root, and
`elsewhere` for any other path. -/
def directories (links : Links) (elsewhere : Directories) (root : PathBuf) (disk : Disk) :
    Directories :=
  fun path =>
    if root.components.isPrefixOf path.components then
      disk.isDir links ((path.components.drop root.components.length).filterMap Component.name?)
    else elsewhere path

/-- What a verified replacement leaves: the new item in place of what was at
the path. A directory that replaces a directory keeps what is in it. -/
def install (disk : Disk) (place : List Name) (node : DiskNode) : Disk :=
  fun names =>
    if names = place then some node
    else if place.isPrefixOf names = true ∧ ¬ (node = .directory ∧ disk place = some .directory) then
      none
    else disk names

end Disk

def DiskNode.ofItem (item : InventoryItem) : DiskNode :=
  match item.itemType with
  | .regularFile => .file
  | .directory => .directory
  | .symlink => .link (item.metadata.symlinkTarget.getD ⟨[]⟩)
  | .unsupported => .other

/-- What a Copy or Overwrite of the action puts at its destination: the item of
the source. -/
def installedBy (source : SourceInventory) (action : PlanAction) : Option DiskNode :=
  if action.kind = .copyToDestination ∨ action.kind = .overwriteDestination then
    (source.item action.relativePath).map .ofItem
  else none

/-- The Copy and Overwrite actions are carried out in order, below the root with
these names. -/
def execute (source : SourceInventory) (root : List Name) (actions : List PlanAction)
    (disk : Disk) : Disk :=
  actions.foldl (fun disk action =>
    match installedBy source action with
    | some node => disk.install (root ++ namesOf action.relativePath) node
    | none => disk) disk

/-- What the plan puts at a path below its root. -/
def plannedAt (source : SourceInventory) (actions : List PlanAction) (names : List Name) :
    Option DiskNode :=
  (actions.reverse.find? fun action =>
    (installedBy source action).isSome && namesOf action.relativePath = names).bind
      (installedBy source)

/-! ## The roots -/

/-- The folder below the selected destination with the source's name, when it is
another folder. -/
def SyncProfile.childName (profile : SyncProfile) : Option Name :=
  if profile.destinationPeer.root.fileName = profile.sourcePeer.root.fileName then none
  else profile.sourcePeer.root.fileName

/-- The names of the destination root below the selected destination. -/
def rootNames (isDir : Directories) (profile : SyncProfile) : List Name :=
  if isDir profile.effectiveDestinationRoot then profile.childName.toList else []

/-- Analysis and specification find the same destination root at both
moments. -/
structure StableRoot (before after : Directories) (profile : SyncProfile) : Prop where
  specification : processDestinationRoot after profile = processDestinationRoot before profile
  analysis : (analysisDestinationPeer after profile).root =
    (analysisDestinationPeer before profile).root

/-- The run keeps the folder what it was. A link that led to a directory leads
to one afterwards. Where there was no directory, none arrives, and no link that
arrives or stays leads to one afterwards. -/
def KeepsChild (links : Links) (disk final : Disk) (arrives : Option DiskNode) (name : Name) :
    Prop :=
  if disk.isDir links [name] = true then
    ∀ target, disk [name] = some (.link target) → links final [name] target = true
  else
    arrives ≠ some .directory ∧
      ∀ target, arrives.or (disk [name]) = some (.link target) → links final [name] target = false

/-! ## What a run leaves at a path -/

section

variable {source : SourceInventory} {root names : List Name} {actions : List PlanAction}
  {disk : Disk} {action : PlanAction}

theorem execute_concat : execute source root (actions ++ [action]) disk =
    match installedBy source action with
    | some node => (execute source root actions disk).install
        (root ++ namesOf action.relativePath) node
    | none => execute source root actions disk := by
  rw [execute, List.foldl_append]
  rfl

theorem plannedAt_concat : plannedAt source (actions ++ [action]) names =
    if (installedBy source action).isSome = true ∧ namesOf action.relativePath = names then
      installedBy source action
    else plannedAt source actions names := by
  unfold plannedAt
  rw [List.reverse_append, List.reverse_singleton, List.singleton_append, List.find?_cons]
  split <;> rename_i h
  · rw [Bool.and_eq_true, decide_eq_true_eq] at h
    rw [if_pos h]
    rfl
  · rw [if_neg]
    simpa using h

/-- Below a root that is not above it, a run leaves a path as it is. -/
theorem execute_of_not_prefix (h : ∀ action ∈ actions, (installedBy source action).isSome = true →
      ¬ root ++ namesOf action.relativePath <+: names) :
    execute source root actions disk names = disk names := by
  induction actions using List.reverseRecOn with
  | nil => rfl
  | append_singleton actions action ih =>
      have hrest := ih fun a ha => h a (List.mem_append_left _ ha)
      rw [execute_concat]
      cases hnode : installedBy source action with
      | none => exact hrest
      | some node =>
          have hbelow := h action (by simp) (by rw [hnode]; rfl)
          dsimp only
          rw [Disk.install, if_neg, if_neg, hrest]
          · rw [List.isPrefixOf_iff_prefix]
            exact fun hcon => hbelow hcon.1
          · rintro rfl
            exact hbelow (List.prefix_refl _)

/-- **What a run leaves at the folder**: what the plan puts there, or what was
there before. -/
theorem execute_child {name : Name} (h : ∀ action ∈ actions,
      (installedBy source action).isSome = true → namesOf action.relativePath ≠ []) :
    execute source [] actions disk [name] = (plannedAt source actions [name]).or (disk [name]) := by
  induction actions using List.reverseRecOn with
  | nil => rfl
  | append_singleton actions action ih =>
      have hrest := ih fun a ha => h a (List.mem_append_left _ ha)
      rw [execute_concat, plannedAt_concat]
      cases hnode : installedBy source action with
      | none => simpa using hrest
      | some node =>
          have hne := h action (by simp) (by rw [hnode]; rfl)
          dsimp only
          rw [List.nil_append, Disk.install]
          by_cases hplace : namesOf action.relativePath = [name]
          · rw [if_pos hplace.symm, if_pos ⟨rfl, hplace⟩]
            rfl
          · rw [if_neg (fun heq => hplace heq.symm), if_neg, if_neg (fun hcon => hplace hcon.2), hrest]
            rintro ⟨hbelow, -⟩
            rw [List.isPrefixOf_iff_prefix] at hbelow
            rcases List.prefix_cons_iff.mp hbelow with hnil | ⟨rest, hrest', hbelow⟩
            · exact hne hnil
            · rw [List.prefix_nil.mp hbelow] at hrest'
              exact hplace hrest'

end

/-! ## What a plan puts at a path -/

/-- What a One-Way plan brings to a path: the included item the source has
there, unless the destination keeps it out or has its equal. -/
def arriving (metadata : MetadataRequirements) (source destination : SourceInventory)
    (path : PathBuf) : Option DiskNode :=
  (source.item path).bind fun item =>
    if item.isEligible ∧ (transferKind metadata item (destination.item path)).isSome then
      some (.ofItem item)
    else none

theorem arriving_congr {metadata : MetadataRequirements} {source destination : SourceInventory}
    {p q : PathBuf} (h : p.components = q.components) :
    arriving metadata source destination p = arriving metadata source destination q := by
  unfold arriving
  rw [source.item_congr h, destination.item_congr h]

section

variable {w : WalkScope} {specification : ProcessSpecification}
  {source destination : SourceInventory} {actions : List PlanAction} {action : PlanAction}
  {node : DiskNode} {name : Name}

/-- The Copy and Overwrite actions of a One-Way plan, with what they install. -/
theorem installedBy_of_mem (hsource : w.InScope source) (hdestination : w.InScope destination)
    (hmode : specification.mode = .oneWay)
    (hplan : buildPlan specification source destination = .ok actions) (h : action ∈ actions)
    (hnode : installedBy source action = some node) :
    ∃ item ∈ source.items, item.relativePath.components = action.relativePath.components ∧
      arriving specification.options.metadata source destination action.relativePath =
        some node := by
  obtain ⟨hactions, -⟩ := buildPlan_eq_ok.mp hplan
  rw [hactions] at h
  have hdraft := draft_mem_of_mem h
  unfold installedBy at hnode
  split at hnode
  · rename_i hkind
    obtain ⟨item, hitem, rfl⟩ := Option.map_eq_some_iff.mp hnode
    obtain ⟨hmem, hpath⟩ := SourceInventory.item_same hitem
    refine ⟨item, hmem, hpath, ?_⟩
    obtain ⟨item', hmem', hin, heq, htransfer⟩ :=
      (transfer_mem_oneWayDrafts hmode hkind).mp hdraft
    have hpath' : action.relativePath = item'.relativePath :=
      congrArg ActionDraft.relativePath heq
    have hsame : item' = item := by
      have hfound := hsource.item_eq_some.mpr ⟨hmem', congrArg PathBuf.components hpath'.symm⟩
      exact Option.some.inj (hfound.symm.trans hitem)
    subst hsame
    have htransfer' : transferKind specification.options.metadata item'
        (destination.item action.relativePath) = some action.kind := by
      rw [hpath', ← hdestination.getByPath_eq]
      exact htransfer
    unfold arriving
    rw [hitem, Option.bind_some, if_pos]
    exact ⟨decide_eq_true hin, by rw [htransfer']; rfl⟩
  · cases hnode

/-- What the plan brings to a path is installed by one of its actions. -/
theorem exists_installedBy (hsource : w.InScope source) (hdestination : w.InScope destination)
    (hmode : specification.mode = .oneWay)
    (hplan : buildPlan specification source destination = .ok actions) {path : PathBuf}
    (h : arriving specification.options.metadata source destination path = some node) :
    ∃ action ∈ actions, action.relativePath.components = path.components ∧
      installedBy source action = some node := by
  obtain ⟨item, hitem, h⟩ := Option.bind_eq_some_iff.mp h
  split at h
  · rename_i hcondition
    obtain ⟨hin, htransfer⟩ := hcondition
    obtain ⟨kind, htransfer⟩ := Option.isSome_iff_exists.mp htransfer
    obtain ⟨hmem, hpath⟩ := SourceInventory.item_same hitem
    have hget : sourceByPath destination item.relativePath = destination.item path := by
      rw [← hdestination.getByPath_eq path]
      exact getByPath_congr hpath
    have hdraft : (⟨item.relativePath, kind, .ofSource specification.source, dataSize item⟩ :
        ActionDraft) ∈ planDrafts specification source destination := by
      refine (mem_oneWayDrafts hmode).mpr (.inl ⟨item, hmem, of_decide_eq_true hin, rfl, .inl ?_⟩)
      rw [hget]
      exact htransfer
    obtain ⟨action, haction, hdraft⟩ := exists_mem_of_draft_mem hdraft
    obtain ⟨hactions, -⟩ := buildPlan_eq_ok.mp hplan
    have hpath' : action.relativePath = item.relativePath :=
      congrArg ActionDraft.relativePath hdraft
    have hkind : action.kind = kind := congrArg ActionDraft.kind hdraft
    have hfound : source.item action.relativePath = some item :=
      hsource.item_eq_some.mpr ⟨hmem, by rw [hpath']⟩
    refine ⟨action, hactions ▸ haction, by rw [hpath', hpath], ?_⟩
    unfold installedBy
    rw [if_pos, hfound]
    · exact h
    · rw [hkind]
      rcases transferKind_cases htransfer with ⟨hcopy, -⟩ | ⟨hoverwrite, -⟩
      · exact .inl hcopy
      · exact .inr hoverwrite
  · cases h

/-- The path of an item is its names. -/
theorem components_of_namesOf {inventory : SourceInventory} (h : w.InScope inventory)
    {item : InventoryItem} (hitem : item ∈ inventory.items) :
    namesOf item.relativePath ≠ [] ∧
      item.relativePath.components = (namesOf item.relativePath).map Component.normal := by
  obtain ⟨names, found, hne, hvalid, rfl⟩ := h.named item hitem
  rw [WalkScope.relativePath_itemAt, namesOf_pathOf hvalid, components_pathOf hvalid]
  exact ⟨hne, rfl⟩

/-- **The last action at a path brings what the plan brings there.** -/
theorem plannedAt_eq (hsource : w.InScope source) (hdestination : w.InScope destination)
    (hmode : specification.mode = .oneWay)
    (hplan : buildPlan specification source destination = .ok actions) (hname : ValidName name) :
    plannedAt source actions [name] =
      arriving specification.options.metadata source destination ⟨name⟩ := by
  have hcomponents : ∀ action ∈ actions, ∀ node, installedBy source action = some node →
      (namesOf action.relativePath = [name] ↔
        action.relativePath.components = (⟨name⟩ : PathBuf).components) := by
    intro action haction node hnode
    obtain ⟨item, hitem, hpath, -⟩ :=
      installedBy_of_mem hsource hdestination hmode hplan haction hnode
    rw [components_name hname, ← hpath, (components_of_namesOf hsource hitem).2,
      namesOf_congr hpath]
    constructor
    · intro h
      rw [h]
      rfl
    · intro h
      exact List.map_injective_iff.mpr (fun _ _ h => Component.normal.inj h) h
  unfold plannedAt
  cases hfind : actions.reverse.find? fun action =>
      (installedBy source action).isSome && namesOf action.relativePath = [name] with
  | some action =>
      have hmem := List.mem_reverse.mp (List.mem_of_find?_eq_some hfind)
      have hfound := List.find?_some hfind
      simp only [Bool.and_eq_true, decide_eq_true_eq] at hfound
      obtain ⟨node, hnode⟩ := Option.isSome_iff_exists.mp hfound.1
      obtain ⟨-, -, -, harriving⟩ :=
        installedBy_of_mem hsource hdestination hmode hplan hmem hnode
      have hsame := (hcomponents action hmem node hnode).mp hfound.2
      rw [Option.bind_some, hnode, ← harriving]
      exact arriving_congr hsame
  | none =>
      cases harriving : arriving specification.options.metadata source destination ⟨name⟩ with
      | none => rfl
      | some node =>
          obtain ⟨action, haction, hpath, hnode⟩ :=
            exists_installedBy hsource hdestination hmode hplan harriving
          have hnone := List.find?_eq_none.mp hfind action (List.mem_reverse.mpr haction)
          rw [hnode, (hcomponents action haction node hnode).mpr hpath] at hnone
          simp at hnone

end

/-! ## Whether the root is the same afterwards -/

section

variable {links : Links} {elsewhere : Directories} {disk final : Disk} {profile : SyncProfile}
  {name : Name}

/-- The destination is the folder with the source's name, or another folder is
below it. -/
theorem childName_cases (profile : SyncProfile) :
    (profile.childName = none ∧
        profile.effectiveDestinationRoot = profile.destinationPeer.root) ∨
      ∃ name, profile.childName = some name ∧ profile.sourcePeer.root.fileName = some name ∧
        (profile.mode = .oneWay →
          profile.effectiveDestinationRoot = profile.destinationPeer.root.join ⟨name⟩) := by
  unfold SyncProfile.childName SyncProfile.effectiveDestinationRoot
  cases hname : profile.sourcePeer.root.fileName with
  | none => left; simp
  | some name =>
      by_cases hsame : profile.destinationPeer.root.fileName = some name
      · left; simp [hsame]
      · right
        refine ⟨name, if_neg hsame, rfl, fun hmode => ?_⟩
        simp [hmode, hsame]

/-- Whether the folder is a directory is asked of the disk at its name. -/
theorem directories_child (hname : ValidName name) :
    disk.directories links elsewhere profile.destinationPeer.root
      (profile.destinationPeer.root.join ⟨name⟩) = disk.isDir links [name] := by
  have hcomponents := components_join_name hname profile.destinationPeer.root
  have hbelow : profile.destinationPeer.root.components.isPrefixOf
      (profile.destinationPeer.root.join ⟨name⟩).components = true := by
    rw [hcomponents, List.isPrefixOf_iff_prefix]
    exact List.prefix_append _ _
  unfold Disk.directories
  rw [if_pos hbelow, hcomponents, List.drop_left]
  rfl

/-- The root is the same afterwards when the folder is a directory at both
moments or at neither, or is the selected destination. -/
theorem stableRoot_iff {before after : Directories} (hmode : profile.mode = .oneWay)
    (hlocal : profile.destinationPeer.isSsh = false)
    (hnul : 0 ∉ profile.sourcePeer.root.bytes) :
    StableRoot before after profile ↔
      (profile.childName ≠ none →
        after profile.effectiveDestinationRoot = before profile.effectiveDestinationRoot) := by
  have hanalysis : ∀ isDir : Directories, (analysisDestinationPeer isDir profile).root =
      processDestinationRoot isDir profile := by
    intro isDir
    unfold analysisDestinationPeer processDestinationRoot selectedPeers
    rw [if_neg (by rw [hmode]; decide)]
    by_cases hdir : isDir profile.effectiveDestinationRoot = true
    · simp [hmode, hlocal, hdir, Peer.root]
    · simp [hdir]
  have hboth : StableRoot before after profile ↔
      processDestinationRoot after profile = processDestinationRoot before profile :=
    ⟨fun h => h.specification, fun h => ⟨h, by rw [hanalysis, hanalysis, h]⟩⟩
  rw [hboth]
  rcases childName_cases profile with ⟨hchild, heq⟩ | ⟨name, hchild, hname, heq⟩
  · have hroot : ∀ isDir, processDestinationRoot isDir profile = profile.destinationPeer.root := by
      intro isDir
      unfold processDestinationRoot
      split
      · exact heq
      · rfl
    rw [hroot, hroot, hchild]
    simp
  · have hne : profile.effectiveDestinationRoot ≠ profile.destinationPeer.root := by
      intro hcon
      have hcomponents := congrArg PathBuf.components ((heq hmode).symm.trans hcon)
      rw [components_join_name (PathBuf.fileName_valid hname hnul)] at hcomponents
      have hlength := congrArg List.length hcomponents
      rw [List.length_append, List.length_singleton] at hlength
      omega
    have hroot : ∀ isDir : Directories, processDestinationRoot isDir profile =
        if isDir profile.effectiveDestinationRoot = true then profile.effectiveDestinationRoot
        else profile.destinationPeer.root := by
      intro isDir
      unfold processDestinationRoot
      by_cases hdir : isDir profile.effectiveDestinationRoot = true
      · rw [if_pos ⟨hmode, hlocal, hdir⟩, if_pos hdir]
      · rw [if_neg fun h => hdir h.2.2, if_neg hdir]
    rw [hroot, hroot, hchild]
    by_cases hafter : after profile.effectiveDestinationRoot = true <;>
      by_cases hbefore : before profile.effectiveDestinationRoot = true <;>
        simp [hafter, hbefore, hne, hne.symm]

/-- A path at which a link or nothing new stands is a directory when what stands
there says so. -/
theorem isDir_eq_true_iff {names : List Name} : final.isDir links names = true ↔
    final names = some .directory ∨
      ∃ target, final names = some (.link target) ∧ links final names target = true := by
  unfold Disk.isDir
  rcases hnode : final names with _ | (_ | _ | target | _) <;> simp

end

/-- The disk once the Copy and Overwrite actions of the analysis are carried
out. -/
def FreshAnalysis.executed (analysis : FreshAnalysis) (isDir : Directories) (disk : Disk) : Disk :=
  execute analysis.sourceInventory (rootNames isDir analysis.profile) analysis.actions disk

/-- **When a run keeps its destination root.** The root found after the run is
the one found before exactly when the selected destination has the source's
name itself, or the run keeps the folder of that name what it was. -/
theorem destination_root_stable_iff {fs : FileSystem} {profile : SyncProfile}
    {analysis : FreshAnalysis} {disk : Disk} {links : Links} {elsewhere : Directories}
    (hmode : profile.mode = .oneWay)
    (hdisk : fs.isDir = disk.directories links elsewhere profile.destinationPeer.root)
    (h : FreshAnalysis.analyze fs profile = .ok analysis) :
    StableRoot fs.isDir
        ((analysis.executed fs.isDir disk).directories links elsewhere
          profile.destinationPeer.root) profile ↔
      ∀ name, profile.childName = some name →
        KeepsChild links disk (analysis.executed fs.isDir disk)
          (arriving analysis.specification.options.metadata analysis.sourceInventory
            analysis.destinationInventory ⟨name⟩) name := by
  obtain ⟨hprofile, hspecification, hpeers, hsource, hdestination⟩ :=
    FreshAnalysis.analyze_eq_ok h
  have hsource := WalkScope.collectInventory_inScope hsource
  have hdestination := WalkScope.collectInventory_inScope hdestination
  have hplanMode : analysis.specification.mode = .oneWay := by
    rw [analysis.mode_eq, hprofile, hmode]
  have hlocal : profile.destinationPeer.isSsh = false := by
    unfold SyncProfile.destinationPeer
    split
    · exact hpeers.2
    · exact hpeers.1
  have hnul : 0 ∉ profile.sourcePeer.root.bytes := by
    obtain ⟨options, -, hspecification⟩ := bind_eq_ok.mp hspecification
    obtain ⟨hchecks, -⟩ := unit_bind_eq_ok.mp hspecification
    exact (ProcessSpecification.checkProfile_eq_ok.mp hchecks).1.source.2
  -- every action that installs something is below the root
  have hbelow : ∀ action ∈ analysis.actions,
      (installedBy analysis.sourceInventory action).isSome = true →
        namesOf action.relativePath ≠ [] := by
    intro action haction hinstalls
    obtain ⟨node, hnode⟩ := Option.isSome_iff_exists.mp hinstalls
    obtain ⟨item, hitem, hpath, -⟩ :=
      installedBy_of_mem hsource hdestination hplanMode analysis.planned haction hnode
    rw [← namesOf_congr hpath]
    exact (components_of_namesOf hsource hitem).1
  rw [stableRoot_iff hmode hlocal hnul]
  rcases childName_cases profile with ⟨hchild, -⟩ | ⟨name, hchild, hname, heffective⟩
  · rw [hchild]
    simp
  · have hvalid := PathBuf.fileName_valid hname hnul
    have hbefore : fs.isDir profile.effectiveDestinationRoot = disk.isDir links [name] := by
      rw [hdisk, heffective hmode, directories_child hvalid]
    have hroot : rootNames fs.isDir analysis.profile =
        if disk.isDir links [name] = true then [name] else [] := by
      rw [hprofile, rootNames, hbefore, hchild]
      rfl
    rw [hbefore, heffective hmode, directories_child hvalid, hchild]
    simp only [ne_eq, reduceCtorEq, not_false_eq_true, forall_const, Option.some.injEq,
      forall_eq']
    unfold KeepsChild
    by_cases hdir : disk.isDir links [name] = true
    · have hkept : analysis.executed fs.isDir disk [name] = disk [name] := by
        unfold FreshAnalysis.executed
        rw [hroot, if_pos hdir]
        refine execute_of_not_prefix fun action haction hinstalls hnames => ?_
        rw [List.cons_append, List.nil_append, List.cons_prefix_cons, List.prefix_nil] at hnames
        exact hbelow action haction hinstalls hnames.2
      rw [if_pos hdir, hdir, isDir_eq_true_iff, hkept]
      rcases isDir_eq_true_iff.mp hdir with hnode | ⟨target, hnode, -⟩ <;> simp [hnode]
    · have hleft : analysis.executed fs.isDir disk [name] =
          (arriving analysis.specification.options.metadata analysis.sourceInventory
            analysis.destinationInventory ⟨name⟩).or (disk [name]) := by
        unfold FreshAnalysis.executed
        rw [hroot, if_neg hdir, execute_child hbelow,
          plannedAt_eq hsource hdestination hplanMode analysis.planned hvalid]
      have hnone : disk [name] ≠ some .directory := fun hnode =>
        hdir (isDir_eq_true_iff.mpr (.inl hnode))
      rw [if_neg hdir, Bool.eq_false_iff.mpr hdir, ← hleft]
      have harrives : analysis.executed fs.isDir disk [name] = some .directory ↔
          arriving analysis.specification.options.metadata analysis.sourceInventory
            analysis.destinationInventory ⟨name⟩ = some .directory := by
        rw [hleft]
        cases arriving analysis.specification.options.metadata analysis.sourceInventory
          analysis.destinationInventory ⟨name⟩ <;> simp [hnone]
      rw [ne_eq, ← harrives, Bool.eq_false_iff, ne_eq, isDir_eq_true_iff, not_or]
      simp

/-! ### The folder `/a` and an empty `/b` -/

/-- `/b` is an empty folder without a folder `a`. -/
def emptyDisk : Disk := fun _ => none

/-- A moment at which `/a` has one entry, `a`, and `/b` has none. -/
def besideEmpty (found : Found) : FileSystem where
  lossy := .utf8
  isDir := emptyDisk.directories (fun _ _ _ => false) (fun _ => false) ⟨[47, 98]⟩
  tree root :=
    if root = ⟨[47, 97]⟩ then .ofLetter found
    else .ofEntries .nil trivial

theorem exists_analysis (fs : FileSystem) (profile : SyncProfile) (test : FreshAnalysis → Bool)
    (h : (FreshAnalysis.analyze fs profile).toOption.any test = true) :
    ∃ analysis, FreshAnalysis.analyze fs profile = .ok analysis ∧ test analysis = true :=
  exists_ok h

/-- A file `a` is copied, and `/b` stays the root. -/
theorem destination_root_stable_file : ∃ analysis,
    FreshAnalysis.analyze (besideEmpty (plainFile zeroHash)) copyingProfile = .ok analysis ∧
      StableRoot (besideEmpty (plainFile zeroHash)).isDir
        ((analysis.executed (besideEmpty (plainFile zeroHash)).isDir emptyDisk).directories
          (fun _ _ _ => false) (fun _ => false) ⟨[47, 98]⟩) copyingProfile := by
  obtain ⟨analysis, hanalysis, hfile⟩ := exists_analysis (besideEmpty (plainFile zeroHash)) copyingProfile
    (fun analysis => arriving analysis.specification.options.metadata analysis.sourceInventory
      analysis.destinationInventory ⟨[97]⟩ = some .file) (by decide +kernel)
  refine ⟨analysis, hanalysis, (destination_root_stable_iff rfl rfl hanalysis).mpr ?_⟩
  intro name hname
  obtain rfl : [97] = name := Option.some.inj hname
  rw [of_decide_eq_true hfile]
  exact ⟨nofun, nofun⟩

/-- A folder `a` is copied, and `/b/a` is the root afterwards. -/
theorem destination_root_not_stable :
    ¬ ∀ (fs : FileSystem) (profile : SyncProfile) (analysis : FreshAnalysis) (disk : Disk)
      (links : Links) (elsewhere : Directories), profile.mode = .oneWay →
        fs.isDir = disk.directories links elsewhere profile.destinationPeer.root →
        FreshAnalysis.analyze fs profile = .ok analysis →
          StableRoot fs.isDir ((analysis.executed fs.isDir disk).directories links elsewhere
            profile.destinationPeer.root) profile := by
  intro h
  obtain ⟨analysis, hanalysis, hmoved⟩ := exists_analysis (besideEmpty plainDirectory) copyingProfile
    (fun analysis =>
      processDestinationRoot ((analysis.executed (besideEmpty plainDirectory).isDir
        emptyDisk).directories (fun _ _ _ => false) (fun _ => false) ⟨[47, 98]⟩)
          copyingProfile = ⟨[47, 98, 47, 97]⟩) (by decide +kernel)
  have hstable := (h _ _ analysis emptyDisk _ _ rfl rfl hanalysis).specification
  have hroot : processDestinationRoot (besideEmpty plainDirectory).isDir copyingProfile =
      ⟨[47, 98]⟩ := by
    decide +kernel
  rw [hroot] at hstable
  exact absurd ((of_decide_eq_true hmoved).symm.trans hstable) (by decide)

end SyncPlus
