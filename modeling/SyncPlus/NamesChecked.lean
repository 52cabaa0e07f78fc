import SyncPlus.DestinationNames

/-!
# Names that are checked and names that are written

A precheck compares the names its own walk lists with the entries of the selected
destination. The plan writes the items of the analysis into the destination root,
which may be the folder below the selected one. So a plan for which the precheck
reports nothing brings together no two names that the destination cannot tell apart
exactly when this holds of what the precheck does not compare: of items it did not
look at or leaves out by its reading of the exclusions, and of the entries of that
folder (`names_checked_iff`).
-/

namespace SyncPlus

/-! ## The naming check of a precheck -/

/-- What the precheck found out before it checks names. -/
structure NamingProbe where
  /-- Neither the volumes, the availability nor the scopes end it before. -/
  reaches : Bool
  readable : Bool
  permissionIssues : List PathBuf
  reverseReadable : Bool
  reversePermissionIssues : List PathBuf

/-- The roots a precheck compares for what actions of this side write. -/
def checkedRoots (profile : SyncProfile) (side : PeerSide) : PathBuf × PathBuf :=
  match profile.mode, side with
  | .mirror, .peerA => (profile.peerA.root, profile.peerB.root)
  | .mirror, .peerB => (profile.peerB.root, profile.peerA.root)
  | .oneWay, _ => (profile.sourcePeer.root, profile.destinationPeer.root)

/-- Whether the names for this side are checked at all. -/
def NamingProbe.Checks (probe : NamingProbe) (profile : SyncProfile) (side : PeerSide) : Prop :=
  probe.reaches = true ∧
    match profile.mode, side with
    | .mirror, .peerB => probe.reverseReadable = true ∧ probe.reversePermissionIssues = []
    | _, _ => probe.readable = true ∧ probe.permissionIssues = []

instance (probe : NamingProbe) (profile : SyncProfile) (side : PeerSide) :
    Decidable (probe.Checks profile side) := by
  unfold NamingProbe.Checks
  split <;> infer_instance

section

variable (fs : FileSystem) (forms : TextForms) (policyFor : PathBuf → DestinationNamingPolicy)
  (probe : NamingProbe) (profile : SyncProfile)

/-- The conflicts for one side, with the policy of the destination that is checked. -/
def conflictsFor (side : PeerSide) : Except PrecheckError (List NamingConflict) :=
  if probe.Checks profile side then
    (policyFor (checkedRoots profile side).2).findConflicts forms fs.lossy profile.exclusions fs.tree
      (checkedRoots profile side).1 (checkedRoots profile side).2
  else .ok []

/-- `PrecheckResult::naming_conflicts`. -/
def namingConflicts : Except PrecheckError (List NamingConflict) := do
  if profile.mode = .mirror then
    let conflicts ← conflictsFor fs forms policyFor probe profile .peerA
    let reverse ← conflictsFor fs forms policyFor probe profile .peerB
    return conflicts ++ reverse
  else conflictsFor fs forms policyFor probe profile (.ofSource profile.source)

/-- The root the actions of this side are written below. -/
def writtenRoot (side : PeerSide) : PathBuf :=
  match profile.mode, side with
  | .mirror, .peerB => profile.peerA.root
  | .mirror, .peerA => profile.peerB.root
  | .oneWay, _ => (analysisDestinationPeer fs.isDir profile).root

/-- The key of a path where this side writes. -/
def writtenKey (side : PeerSide) (path : PathBuf) : List Char :=
  (policyFor (checkedRoots profile side).2).key forms fs.lossy path

end

/-! ## What is written -/

/-- The items a plan copies or overwrites: what a Mirror peer lacks, and what a
One-Way destination lacks or has otherwise. -/
def Sent (specification : ProcessSpecification) (source destination : SourceInventory)
    (side : PeerSide) (item : InventoryItem) : Prop :=
  SendsFrom specification side ∧
    item ∈ (sendingInventory specification source destination side).items ∧
    item.outcome = .included ∧
    match specification.mode with
    | .mirror => (receivingInventory specification source destination side).item
        item.relativePath = none
    | .oneWay => (transferKind specification.options.metadata item
        ((receivingInventory specification source destination side).item
          item.relativePath)).isSome = true

section

variable {w : WalkScope} {specification : ProcessSpecification}
  {source destination : SourceInventory} {side : PeerSide}

/-- **The transfers of a plan are the items that are sent.** -/
theorem transferred_iff (hs : w.InScope source) (hd : w.InScope destination) {path : PathBuf} :
    (∃ draft ∈ planDrafts specification source destination, draft.kind.Transfers ∧
        draft.sourceSide = side ∧ draft.relativePath.components = path.components) ↔
      ∃ item, Sent specification source destination side item ∧
        item.relativePath.components = path.components := by
  have hget : ∀ {inventory : SourceInventory}, w.InScope inventory → ∀ q,
      sourceByPath inventory q = inventory.item q := fun h q => h.getByPath_eq q
  unfold Sent SendsFrom sendingInventory receivingInventory
  cases hmode : specification.mode with
  | mirror =>
      dsimp only
      constructor
      · rintro ⟨draft, hdraft, -, rfl, hpath⟩
        rw [planDrafts_mirror hmode] at hdraft
        rcases (mem_mirrorDrafts.mp hdraft).2 with ⟨item, hitem, hnone, hin, heq⟩ |
          ⟨item, hnone, hitem, hin, heq⟩
        · rw [hget hs, hs.item_eq_some] at hitem
          rw [hget hd] at hnone
          have hside : draft.sourceSide = .peerA := congrArg ActionDraft.sourceSide heq
          rw [hside]
          refine ⟨item, ⟨nofun, hitem.1, hin, ?_⟩, hitem.2.trans hpath⟩
          rw [destination.item_congr hitem.2, hnone]
        · rw [hget hd, hd.item_eq_some] at hitem
          rw [hget hs] at hnone
          have hside : draft.sourceSide = .peerB := congrArg ActionDraft.sourceSide heq
          rw [hside]
          refine ⟨item, ⟨nofun, hitem.1, hin, ?_⟩, hitem.2.trans hpath⟩
          rw [source.item_congr hitem.2, hnone]
      · rintro ⟨item, ⟨-, hmem, hin, hnone⟩, hpath⟩
        have hside : SendsFrom specification side := by
          intro hone
          rw [hmode] at hone
          cases hone
        have hmem' : item ∈ (sendingInventory specification source destination side).items := by
          unfold sendingInventory
          rw [hmode]
          exact hmem
        have hnone' : (receivingInventory specification source destination side).item
            item.relativePath = none := by
          unfold receivingInventory
          rw [hmode]
          exact hnone
        obtain ⟨draft, hdraft, hkind, hdraftSide, hdraftPath⟩ :=
          copied_of_missing hs hd hside hmem' hin hnone'
        exact ⟨draft, hdraft, .inl hkind, hdraftSide, hdraftPath.trans hpath⟩
  | oneWay =>
      dsimp only
      constructor
      · rintro ⟨draft, hdraft, hkind, rfl, hpath⟩
        obtain ⟨item, hmem, hin, heq, htransfer⟩ :=
          (transfer_mem_oneWayDrafts hmode hkind).mp hdraft
        have hdraftPath : draft.relativePath = item.relativePath :=
          congrArg ActionDraft.relativePath heq
        have hside : draft.sourceSide = .ofSource specification.source :=
          congrArg ActionDraft.sourceSide heq
        refine ⟨item, ⟨fun _ => hside, hmem, hin, ?_⟩, by rw [← hdraftPath, hpath]⟩
        rw [← hget hd, htransfer]
        rfl
      · rintro ⟨item, ⟨hside, hmem, hin, htransfer⟩, hpath⟩
        obtain ⟨kind, hkind⟩ := Option.isSome_iff_exists.mp htransfer
        refine ⟨⟨item.relativePath, kind, side, dataSize item⟩, (mem_oneWayDrafts hmode).mpr
          (.inl ⟨item, hmem, hin, by rw [hside rfl], .inl ?_⟩), ?_, rfl, hpath⟩
        · rw [hget hd]
          exact hkind
        · rcases transferKind_cases hkind with ⟨hcopy, -⟩ | ⟨hoverwrite, -⟩
          · exact .inl hcopy
          · exact .inr hoverwrite

end

/-! ## The names that stay apart -/

section

variable (fs : FileSystem) (forms : TextForms) (policyFor : PathBuf → DestinationNamingPolicy)
  (probe : NamingProbe) (analysis : FreshAnalysis)

/-- No Copy or Overwrite has the key of another entry where it is written, or of
another one's path. -/
def WrittenNamesFree : Prop :=
  ∀ action ∈ analysis.actions, action.kind.Transfers →
    let key := writtenKey fs forms policyFor analysis.profile action.sourceSide
    (∀ other ∈ analysis.actions, other.kind.Transfers → other.sourceSide = action.sourceSide →
      key other.relativePath = key action.relativePath →
        other.relativePath.same action.relativePath = true) ∧
    ∀ entry ∈ (fs.tree (writtenRoot fs analysis.profile action.sourceSide)).entries.located,
      key (pathOf entry.1) = key action.relativePath →
        (pathOf entry.1).same action.relativePath = true

def FreshAnalysis.Sent (side : PeerSide) (item : InventoryItem) : Prop :=
  SyncPlus.Sent analysis.specification analysis.sourceInventory analysis.destinationInventory side
    item

/-- The item has the key of no other that is sent. -/
def FreeOfItems (side : PeerSide) (item : InventoryItem) : Prop :=
  ∀ other, analysis.Sent side other →
    writtenKey fs forms policyFor analysis.profile side other.relativePath =
        writtenKey fs forms policyFor analysis.profile side item.relativePath →
      other.relativePath.same item.relativePath = true

/-- The item has the key of no other entry where it is written. -/
def FreeOfEntries (side : PeerSide) (item : InventoryItem) : Prop :=
  ∀ entry ∈ (fs.tree (writtenRoot fs analysis.profile side)).entries.located,
    writtenKey fs forms policyFor analysis.profile side (pathOf entry.1) =
        writtenKey fs forms policyFor analysis.profile side item.relativePath →
      (pathOf entry.1).same item.relativePath = true

/-- The precheck has looked at the item: names are checked for its side, and its path
is not left out. -/
def FreshAnalysis.Compared (side : PeerSide) (item : InventoryItem) : Prop :=
  probe.Checks analysis.profile side ∧
    WalkScope.skippedAt ⟨fs.lossy, analysis.profile.exclusions⟩ ⟨[]⟩ (namesOf item.relativePath)
      item.itemType = false

/-- What the precheck does not compare is free all the same. -/
def UncomparedNamesFree : Prop :=
  ∀ side item, analysis.Sent side item →
    (¬ analysis.Compared fs probe side item →
      FreeOfItems fs forms policyFor analysis side item ∧
        FreeOfEntries fs forms policyFor analysis side item) ∧
    (writtenRoot fs analysis.profile side ≠ (checkedRoots analysis.profile side).2 →
      FreeOfEntries fs forms policyFor analysis side item)

end

section

variable {fs : FileSystem} {forms : TextForms} {policyFor : PathBuf → DestinationNamingPolicy}
  {probe : NamingProbe} {analysis : FreshAnalysis} {profile : SyncProfile} {side : PeerSide}

theorem key_congr {policy : DestinationNamingPolicy} {lossy : LossyNames} {p q : PathBuf}
    (h : p.components = q.components) : policy.key forms lossy p = policy.key forms lossy q := by
  unfold DestinationNamingPolicy.key
  rw [h]

/-- Names are free when those of the items that are sent are. -/
theorem writtenNamesFree_iff {w : WalkScope} (hs : w.InScope analysis.sourceInventory)
    (hd : w.InScope analysis.destinationInventory) :
    WrittenNamesFree fs forms policyFor analysis ↔ ∀ side item, analysis.Sent side item →
      FreeOfItems fs forms policyFor analysis side item ∧
        FreeOfEntries fs forms policyFor analysis side item := by
  obtain ⟨hactions, -⟩ := buildPlan_eq_ok.mp analysis.planned
  have hdrafts : planDrafts analysis.specification analysis.sourceInventory
      analysis.destinationInventory = analysis.actions.map PlanAction.draft := by
    rw [hactions, map_draft_numberDrafts]
  -- each action has its item, and each item its action
  have hitem : ∀ action ∈ analysis.actions, action.kind.Transfers →
      ∃ item, analysis.Sent action.sourceSide item ∧
        item.relativePath.components = action.relativePath.components := by
    intro action haction hkind
    refine (transferred_iff hs hd).mp ⟨action.draft, ?_, hkind, rfl, rfl⟩
    rw [hdrafts]
    exact List.mem_map_of_mem haction
  have haction : ∀ side item, analysis.Sent side item → ∃ action ∈ analysis.actions,
      action.kind.Transfers ∧ action.sourceSide = side ∧
        action.relativePath.components = item.relativePath.components := by
    intro side item hsent
    obtain ⟨draft, hdraft, hkind, hside, hpath⟩ :=
      (transferred_iff hs hd).mpr ⟨item, hsent, rfl⟩
    rw [hdrafts] at hdraft
    obtain ⟨action, haction, rfl⟩ := List.mem_map.mp hdraft
    exact ⟨action, haction, hkind, hside, hpath⟩
  constructor
  · intro h side item hsent
    obtain ⟨action, hmem, hkind, rfl, hpath⟩ := haction side item hsent
    obtain ⟨hitems, hentries⟩ := h action hmem hkind
    constructor
    · intro other hother hkey
      obtain ⟨action', hmem', hkind', hside', hpath'⟩ := haction _ other hother
      have hsame := hitems action' hmem' hkind' hside'
        ((key_congr hpath').trans (hkey.trans (key_congr hpath.symm)))
      rw [PathBuf.same_iff] at hsame ⊢
      rw [← hpath', hsame, hpath]
    · intro entry hentry hkey
      have hsame := hentries entry hentry (hkey.trans (key_congr hpath.symm))
      rw [PathBuf.same_iff] at hsame ⊢
      rw [hsame, hpath]
  · intro h action hmem hkind
    obtain ⟨item, hsent, hpath⟩ := hitem action hmem hkind
    obtain ⟨hitems, hentries⟩ := h _ item hsent
    constructor
    · intro other hother hotherKind hside hkey
      obtain ⟨item', hsent', hpath'⟩ := hitem other hother hotherKind
      rw [hside] at hsent'
      have hsame := hitems item' hsent'
        ((key_congr hpath').trans (hkey.trans (key_congr hpath.symm)))
      rw [PathBuf.same_iff] at hsame ⊢
      rw [← hpath', hsame, hpath]
    · intro entry hentry hkey
      have hsame := hentries entry hentry (hkey.trans (key_congr hpath.symm))
      rw [PathBuf.same_iff] at hsame ⊢
      rw [hsame, hpath]

/-- The conflicts of a side that is checked are reported. -/
theorem conflictsFor_eq_nil (side : PeerSide) (h : namingConflicts fs forms policyFor probe profile = .ok [])
    (hside : profile.mode = .oneWay → side = .ofSource profile.source) :
    conflictsFor fs forms policyFor probe profile side = .ok [] := by
  unfold namingConflicts at h
  split at h <;> rename_i hmode
  · obtain ⟨conflicts, hforward, h⟩ := bind_eq_ok.mp h
    obtain ⟨reverse, hreverse, h⟩ := bind_eq_ok.mp h
    obtain ⟨rfl, rfl⟩ := List.append_eq_nil_iff.mp (Except.ok.inj h)
    cases side with
    | peerA => exact hforward
    | peerB => exact hreverse
  · have hone : profile.mode = .oneWay := by
      cases hcase : profile.mode with
      | mirror => exact absurd hcase hmode
      | oneWay => rfl
    rw [hside hone]
    exact h

/-- The entries a precheck lists have the items it does not leave out. -/
theorem mem_entries {w : WalkScope} {peer : String} {root root' : PathBuf} {tree : FileTree}
    {inventory : SourceInventory} {entries : List PathBuf} {item : InventoryItem}
    (h : w.collectInventory peer root tree = .ok inventory)
    (hentries : w.collectEntries root' tree = .ok entries) (hitem : item ∈ inventory.items)
    (hlisted : w.skippedAt ⟨[]⟩ (namesOf item.relativePath) item.itemType = false) :
    item.relativePath ∈ entries := by
  have hmem := (WalkScope.collectInventory_perm h).mem_iff.mp hitem
  obtain ⟨place, hplace, rfl⟩ := List.mem_map.mp hmem
  have hplace := List.mem_of_mem_filter hplace
  have hvalid := tree.wellFormed.valid hplace
  have hpath : (w.itemAt ⟨[]⟩ false place).relativePath = pathOf place.1 := rfl
  rw [hpath, namesOf_pathOf hvalid] at hlisted
  exact (WalkScope.mem_collectEntries hentries).mpr ⟨place, hplace, hlisted, hpath⟩

theorem root_isSome {w : WalkScope} {peer : String} {root : PathBuf} {tree : FileTree}
    {inventory : SourceInventory} (h : w.collectInventory peer root tree = .ok inventory) :
    tree.root.isSome = true := by
  obtain ⟨found, hfound, -⟩ := bind_eq_ok.mp h
  rw [orError_eq_ok] at hfound
  rw [hfound]
  rfl

/-- The walks of an analysis: of the root a precheck lists for a side, and of the root
the side writes below. -/
theorem walked_of_analyze (side : PeerSide) (h : FreshAnalysis.analyze fs profile = .ok analysis) :
    analysis.profile = profile ∧ analysis.specification.mode = profile.mode ∧
      analysis.specification.source = profile.source ∧
      (∃ peer, WalkScope.collectInventory ⟨fs.lossy, profile.exclusions⟩ peer
        (checkedRoots profile side).1 (fs.tree (checkedRoots profile side).1) =
          .ok (sendingInventory analysis.specification analysis.sourceInventory
            analysis.destinationInventory side)) ∧
      ∃ peer, WalkScope.collectInventory ⟨fs.lossy, profile.exclusions⟩ peer
        (writtenRoot fs profile side) (fs.tree (writtenRoot fs profile side)) =
          .ok (receivingInventory analysis.specification analysis.sourceInventory
            analysis.destinationInventory side) := by
  obtain ⟨hprofile, hspecification, -, hsource, hdestination⟩ := FreshAnalysis.analyze_eq_ok h
  have hmode : analysis.specification.mode = profile.mode := by rw [analysis.mode_eq, hprofile]
  obtain ⟨options, -, hspecification⟩ := bind_eq_ok.mp hspecification
  obtain ⟨-, hspecification⟩ := unit_bind_eq_ok.mp hspecification
  have hspecification := Except.ok.inj hspecification
  have hexclusions : analysis.specification.exclusions = profile.exclusions := by
    rw [← hspecification]
  have hside : analysis.specification.source = profile.source := by rw [← hspecification]
  rw [hexclusions] at hsource hdestination
  refine ⟨hprofile, hmode, hside, ?_⟩
  unfold sendingInventory receivingInventory checkedRoots writtenRoot
  rw [hmode]
  cases hcase : profile.mode with
  | mirror =>
      have hA : analysisSourcePeer profile = profile.peerA := by simp [analysisSourcePeer, hcase]
      have hB : analysisDestinationPeer fs.isDir profile = profile.peerB := by
        simp [analysisDestinationPeer, hcase]
      rw [hA] at hsource
      rw [hB] at hdestination
      cases side with
      | peerA => exact ⟨⟨_, hsource⟩, _, hdestination⟩
      | peerB => exact ⟨⟨_, hdestination⟩, _, hsource⟩
  | oneWay =>
      have hS : analysisSourcePeer profile = profile.sourcePeer := by
        simp [analysisSourcePeer, selectedPeers, hcase]
      rw [hS] at hsource
      exact ⟨⟨_, hsource⟩, _, hdestination⟩

end

/-- **When the names that are written have been checked.** A plan whose precheck
reports no naming conflict writes no name that collides exactly when nothing collides
with the items the precheck has not looked at and, where the plan writes below
another root than the precheck lists, with the entries of that root. -/
theorem names_checked_iff {fs : FileSystem} {forms : TextForms}
    {policyFor : PathBuf → DestinationNamingPolicy} {probe : NamingProbe} {profile : SyncProfile}
    {analysis : FreshAnalysis}
    (hcheck : namingConflicts fs forms policyFor probe profile = .ok [])
    (hanalysis : FreshAnalysis.analyze fs profile = .ok analysis) :
    WrittenNamesFree fs forms policyFor analysis ↔
      UncomparedNamesFree fs forms policyFor probe analysis := by
  obtain ⟨rfl, hmode, hsource, -⟩ := walked_of_analyze .peerA hanalysis
  have hwalks := fun side => (walked_of_analyze side hanalysis).2.2.2
  obtain ⟨-, -, -, hs, hd⟩ := FreshAnalysis.analyze_eq_ok hanalysis
  have hs := WalkScope.collectInventory_inScope hs
  have hd := WalkScope.collectInventory_inScope hd
  rw [writtenNamesFree_iff hs hd]
  constructor
  · intro h side item hsent
    exact ⟨fun _ => h side item hsent, fun _ => (h side item hsent).2⟩
  · intro h side item hsent
    obtain ⟨⟨peer, hsender⟩, peer', hreceiver⟩ := hwalks side
    -- for a side that is checked, the precheck has no conflict to report
    have hchecked : probe.Checks analysis.profile side → ∃ entries,
        WalkScope.collectEntries ⟨fs.lossy, analysis.profile.exclusions⟩
          (checkedRoots analysis.profile side).1
          (fs.tree (checkedRoots analysis.profile side).1) = .ok entries ∧
        (∀ p ∈ entries, ∀ q ∈ entries,
          writtenKey fs forms policyFor analysis.profile side p =
            writtenKey fs forms policyFor analysis.profile side q → p = q) ∧
        ∀ entry ∈ (fs.tree (checkedRoots analysis.profile side).2).entries.located,
          (fs.tree (checkedRoots analysis.profile side).2).root.isSome = true →
          ∀ p ∈ entries, writtenKey fs forms policyFor analysis.profile side (pathOf entry.1) =
            writtenKey fs forms policyFor analysis.profile side p →
              (pathOf entry.1).same p = true := by
      intro hchecks
      have hconflicts := conflictsFor_eq_nil side hcheck fun hone => by
        rw [← hsource]
        exact hsent.1 (hmode.trans hone)
      unfold conflictsFor at hconflicts
      rw [if_pos hchecks] at hconflicts
      exact findConflicts_eq_nil hconflicts
    constructor
    · intro other hother hkey
      by_cases hitem : analysis.Compared fs probe side item
      · by_cases hotherCompared : analysis.Compared fs probe side other
        · obtain ⟨entries, hentries, hdistinct, -⟩ := hchecked hitem.1
          have hp := mem_entries hsender hentries hother.2.1 hotherCompared.2
          have hq := mem_entries hsender hentries hsent.2.1 hitem.2
          rw [hdistinct _ hp _ hq hkey]
          exact PathBuf.same_iff.mpr rfl
        · have hsame := ((h side other hother).1 hotherCompared).1 item hsent hkey.symm
          rw [PathBuf.same_iff] at hsame ⊢
          exact hsame.symm
      · exact ((h side item hsent).1 hitem).1 other hother hkey
    · by_cases hitem : analysis.Compared fs probe side item
      · by_cases hroot : writtenRoot fs analysis.profile side =
            (checkedRoots analysis.profile side).2
        · intro entry hentry hkey
          obtain ⟨entries, hentries, -, hdestination⟩ := hchecked hitem.1
          have hp := mem_entries hsender hentries hsent.2.1 hitem.2
          rw [hroot] at hentry hreceiver
          exact hdestination entry hentry (root_isSome hreceiver) _ hp hkey
        · exact (h side item hsent).2 hroot
      · exact ((h side item hsent).1 hitem).2

/-! ### Names beside others -/

/-- ASCII letters have a lower case. -/
def asciiForms : TextForms := ⟨id, fun text => text.map Char.toLower⟩

def caseInsensitivePolicy : DestinationNamingPolicy where
  caseInsensitive := true
  unicodeNormalization := false
  maxComponentBytes := none
  maxPathBytes := none
  reservedNames := []
  invalidCharacters := []
  rejectControlCharacters := false
  rejectTrailingDotOrSpace := false

def allReadable : NamingProbe := ⟨true, true, [], true, []⟩

/-- `/a` has the files `X` and `y`, `/b` the files `y` and `z`. -/
def besideOthers : FileSystem where
  lossy := .utf8
  isDir _ := false
  tree root :=
    if root = ⟨[47, 97]⟩ then
      .ofEntries (.cons [88] (plainFile zeroHash) .nil
        (.cons [121] (plainFile zeroHash) .nil .nil)) (by decide)
    else
      .ofEntries (.cons [121] (plainFile zeroHash) .nil
        (.cons [122] (plainFile zeroHash) .nil .nil)) (by decide)

/-- `/a` has the file `X`; `/b` has the folder `a` with the file `x`. -/
def upperCaseBeside : FileSystem where
  lossy := .utf8
  isDir path := path = ⟨[47, 98, 47, 97]⟩
  tree root :=
    if root = ⟨[47, 97]⟩ then
      .ofEntries (.cons [88] (plainFile zeroHash) .nil .nil) (by decide)
    else if root = ⟨[47, 98, 47, 97]⟩ then aloneTree
    else
      .ofEntries (.cons [97] plainDirectory (.cons [120] (plainFile zeroHash) .nil .nil) .nil)
        (by decide)

/-- `X` is copied: it is compared with `y` and with the names that are there. -/
theorem names_checked_others : ∃ analysis,
    FreshAnalysis.analyze besideOthers copyingProfile = .ok analysis ∧
      analysis.actions.map (·.relativePath) = [⟨[88]⟩] ∧
      WrittenNamesFree besideOthers asciiForms (fun _ => caseInsensitivePolicy) analysis := by
  obtain ⟨analysis, hanalysis, htest⟩ := exists_analysis besideOthers copyingProfile
    (fun analysis => analysis.profile = copyingProfile ∧
      analysis.actions.map (·.relativePath) = [⟨[88]⟩] ∧ analysis.sourceInventory.items.all
      fun item => WalkScope.skippedAt ⟨.utf8, []⟩ ⟨[]⟩ (namesOf item.relativePath)
        item.itemType = false) (by decide +kernel)
  obtain ⟨hprofile, hactions, hall⟩ := of_decide_eq_true htest
  have hcheck : namingConflicts besideOthers asciiForms (fun _ => caseInsensitivePolicy)
      allReadable copyingProfile = .ok [] := by
    decide +kernel
  refine ⟨analysis, hanalysis, hactions, (names_checked_iff hcheck hanalysis).mpr ?_⟩
  intro side item hsent
  rw [hprofile]
  have hmode : analysis.specification.mode = .oneWay := by
    rw [analysis.mode_eq, hprofile]
    rfl
  refine ⟨fun hnot => absurd ?_ hnot, fun hroot => absurd ?_ hroot⟩
  · have hmem := hsent.2.1
    unfold sendingInventory at hmem
    rw [hmode] at hmem
    refine ⟨by rw [hprofile]; exact ⟨rfl, rfl, rfl⟩, ?_⟩
    rw [hprofile]
    exact of_decide_eq_true (List.all_eq_true.mp hall item hmem)
  · cases side <;> decide +kernel

/-- The precheck compares `X` with `a` and `a/x`; the plan writes it beside `x`. -/
theorem names_not_checked :
    ¬ ∀ (fs : FileSystem) (forms : TextForms) (policyFor : PathBuf → DestinationNamingPolicy)
      (probe : NamingProbe) (profile : SyncProfile) (analysis : FreshAnalysis),
      namingConflicts fs forms policyFor probe profile = .ok [] →
        FreshAnalysis.analyze fs profile = .ok analysis →
          WrittenNamesFree fs forms policyFor analysis := by
  intro h
  obtain ⟨analysis, hanalysis, htest⟩ := exists_analysis upperCaseBeside copyingProfile
    (fun analysis => analysis.profile = copyingProfile ∧
      analysis.actions = [⟨1, ⟨[88]⟩, .copyToDestination, .peerA, some 5⟩]) (by decide +kernel)
  obtain ⟨hprofile, hactions⟩ := of_decide_eq_true htest
  have hcheck : namingConflicts upperCaseBeside asciiForms (fun _ => caseInsensitivePolicy)
      allReadable copyingProfile = .ok [] := by
    decide +kernel
  have hfree := h _ _ _ _ _ analysis hcheck hanalysis _ (by rw [hactions]; exact .head _) (.inl rfl)
  rw [hprofile] at hfree
  have hsame := hfree.2 ([[120]], plainFile zeroHash) (by decide +kernel) (by decide +kernel)
  exact absurd hsame (by decide +kernel)

end SyncPlus
