import SyncPlus.DestinationRoot
import SyncPlus.MirrorCoverage

/-!
# What a plan writes below

A plan is built path by path: whether something else than a directory stands above
a path on the peer it is written to is not asked. Above an item that is copied the
sending peer has directories, which the plan brings over first where they are
missing (`planDrafts_ordered`). So a plan writes below directories alone exactly
when no item to be sent lies below a place at which the receiving peer has something
else (`written_below_directories_iff`).
-/

namespace SyncPlus

/-! ## Directions -/

def receivingInventory (specification : ProcessSpecification)
    (source destination : SourceInventory) (side : PeerSide) : SourceInventory :=
  match specification.mode, side with
  | .mirror, .peerB => source
  | _, _ => destination

/-- The sides a plan has actions of. -/
def SendsFrom (specification : ProcessSpecification) (side : PeerSide) : Prop :=
  specification.mode = .oneWay → side = .ofSource specification.source

def PlanActionKind.Transfers (kind : PlanActionKind) : Prop :=
  kind = .copyToDestination ∨ kind = .overwriteDestination

/-- These names lead to a place above the path. -/
def LeadsTo (names : List Name) (path : PathBuf) : Prop :=
  names ≠ [] ∧ ∃ rest, rest ≠ [] ∧ path.components = (names ++ rest).map Component.normal

/-- The receiving peer has a directory at the names, or nothing, and an earlier
action brings a directory there. -/
def DirectoryAbove (specification : ProcessSpecification) (source destination : SourceInventory)
    (earlier : List PlanAction) (side : PeerSide) (names : List Name) : Prop :=
  (∃ item, (receivingInventory specification source destination side).item (pathOf names) =
      some item ∧ item.itemType = .directory) ∨
    ((receivingInventory specification source destination side).item (pathOf names) = none ∧
      ∃ action ∈ earlier, action.kind.Transfers ∧ action.sourceSide = side ∧
        action.relativePath.components = names.map Component.normal ∧
        ∃ item, (sendingInventory specification source destination side).item
          action.relativePath = some item ∧ item.itemType = .directory)

/-- Every Copy and Overwrite of the plan writes below directories. -/
def WrittenBelowDirectories (specification : ProcessSpecification)
    (source destination : SourceInventory) (actions : List PlanAction) : Prop :=
  ∀ earlier action later, actions = earlier ++ action :: later → action.kind.Transfers →
    ∀ names, LeadsTo names action.relativePath →
      DirectoryAbove specification source destination earlier action.sourceSide names

/-- No included item of the sender lies below a place at which the receiver has
something else than a directory. -/
def Unobstructed (sender receiver : SourceInventory) : Prop :=
  ∀ item ∈ sender.items, item.outcome = .included → ∀ names, LeadsTo names item.relativePath →
    ∀ found, receiver.item (pathOf names) = some found → found.itemType = .directory

/-! ## The order of a plan -/

theorem compare_append {l r : List Component} (hr : r ≠ []) : compare l (l ++ r) = .lt := by
  induction l with
  | nil =>
      obtain ⟨c, r, rfl⟩ := List.exists_cons_of_ne_nil hr
      exact List.compare_nil_cons
  | cons c l ih =>
      rw [List.cons_append, List.compare_cons_cons, Std.ReflOrd.compare_self, ih]
      rfl

/-- A draft does not come after one of a path below its own, cleanups apart. -/
def DraftOrder (draft draft' : ActionDraft) : Prop :=
  draft'.kind = .removeDestination ∨
    (compare draft.relativePath.components draft'.relativePath.components).isLE = true

theorem sorted_of_collectInventory {w : WalkScope} {peer : String} {root : PathBuf}
    {tree : FileTree} {inventory : SourceInventory}
    (h : w.collectInventory peer root tree = .ok inventory) :
    inventory.items.Pairwise fun i j =>
      (compare i.relativePath.components j.relativePath.components).isLE = true := by
  obtain ⟨found, -, h⟩ := bind_eq_ok.mp h
  obtain ⟨-, h⟩ := unit_bind_eq_ok.mp h
  obtain ⟨items, -, h⟩ := bind_eq_ok.mp h
  cases h
  have : Std.Total fun i j : InventoryItem =>
      (compare i.relativePath.components j.relativePath.components).isLE = true := by
    refine ⟨fun i j => ?_⟩
    rw [Std.OrientedOrd.eq_swap (a := j.relativePath.components)]
    cases compare i.relativePath.components j.relativePath.components <;> simp
  have : IsTrans InventoryItem fun i j =>
      (compare i.relativePath.components j.relativePath.components).isLE = true :=
    ⟨fun _ _ _ => Std.TransOrd.isLE_trans⟩
  exact List.pairwise_insertionSort _ items

section

variable {w : WalkScope} {specification : ProcessSpecification}
  {source destination : SourceInventory} {actions : List PlanAction} {draft : ActionDraft}
  {side : PeerSide}

theorem relativePath_of_sourceDrafts {item : InventoryItem}
    (h : draft ∈ sourceDrafts specification destination item) :
    draft.relativePath = item.relativePath :=
  congrArg ActionDraft.relativePath (mem_sourceDrafts.mp h).1

theorem planDrafts_ordered (hsorted : source.items.Pairwise fun i j =>
      (compare i.relativePath.components j.relativePath.components).isLE = true) :
    (planDrafts specification source destination).Pairwise DraftOrder := by
  unfold planDrafts
  split
  · refine List.Pairwise.filterMap _ ?_ (sortedBy_pathSet _)
    intro p q hlt draft hdraft draft' hdraft'
    right
    rw [relativePath_of_mirrorDraft hdraft, relativePath_of_mirrorDraft hdraft', hlt]
    rfl
  · refine List.pairwise_append.mpr ⟨?_, ?_, ?_⟩
    · refine List.pairwise_flatMap.mpr ⟨fun item _ => ?_, ?_⟩
      · refine List.pairwise_of_forall_mem_list fun draft hdraft draft' hdraft' => .inr ?_
        rw [relativePath_of_sourceDrafts hdraft, relativePath_of_sourceDrafts hdraft',
          Std.ReflOrd.compare_self]
        rfl
      · refine (hsorted.sublist List.filter_sublist).imp fun hle draft hdraft draft' hdraft' =>
          .inr ?_
        rw [relativePath_of_sourceDrafts hdraft, relativePath_of_sourceDrafts hdraft', hle]
    · refine List.pairwise_of_forall_mem_list fun draft _ draft' hdraft' => .inl ?_
      obtain ⟨-, item, -, -, -, heq⟩ := mem_cleanupDrafts.mp hdraft'
      rw [heq]
    · intro draft _ draft' hdraft'
      obtain ⟨-, item, -, -, -, heq⟩ := mem_cleanupDrafts.mp hdraft'
      exact .inl (by rw [heq])

/-! ## What is sent -/

/-- An included item that the receiver lacks is copied. -/
theorem copied_of_missing (hs : w.InScope source) (hd : w.InScope destination)
    (hside : SendsFrom specification side) {item : InventoryItem}
    (hitem : item ∈ (sendingInventory specification source destination side).items)
    (hin : item.outcome = .included)
    (hnone : (receivingInventory specification source destination side).item
      item.relativePath = none) :
    ∃ draft ∈ planDrafts specification source destination, draft.kind = .copyToDestination ∧
      draft.sourceSide = side ∧
      draft.relativePath.components = item.relativePath.components := by
  have hfound : ∀ {inventory : SourceInventory}, w.InScope inventory → item ∈ inventory.items →
      ∀ {q : PathBuf}, q.components = item.relativePath.components →
        sourceByPath inventory q = some item := by
    intro inventory h hmem q hq
    rw [sourceByPath, h.getByPath_eq, h.item_eq_some]
    exact ⟨hmem, hq.symm⟩
  have hmissing : ∀ {inventory : SourceInventory}, w.InScope inventory →
      inventory.item item.relativePath = none →
      ∀ {q : PathBuf}, q.components = item.relativePath.components →
        sourceByPath inventory q = none := by
    intro inventory h hitem q hq
    rw [sourceByPath, h.getByPath_eq, inventory.item_congr hq, hitem]
  unfold sendingInventory at hitem
  unfold receivingInventory at hnone
  cases hmode : specification.mode with
  | mirror =>
      rw [hmode] at hitem hnone
      have hpath : item.relativePath ∈ source.items.map (·.relativePath) ++
          destination.items.map (·.relativePath) := by
        cases side with
        | peerA => exact List.mem_append_left _ (List.mem_map_of_mem hitem)
        | peerB => exact List.mem_append_right _ (List.mem_map_of_mem hitem)
      obtain ⟨q, hq, hsame⟩ := exists_mem_pathSet hpath
      rw [planDrafts_mirror hmode]
      refine ⟨⟨q, .copyToDestination, side, dataSize item⟩, mem_mirrorDrafts.mpr ⟨hq, ?_⟩, rfl, rfl,
        hsame⟩
      cases side with
      | peerA => exact .inl ⟨item, hfound hs hitem hsame, hmissing hd hnone hsame, hin, rfl⟩
      | peerB => exact .inr ⟨item, hmissing hs hnone hsame, hfound hd hitem hsame, hin, rfl⟩
  | oneWay =>
      rw [hmode] at hitem hnone
      refine ⟨⟨item.relativePath, .copyToDestination, side, dataSize item⟩,
        (transfer_mem_oneWayDrafts hmode (.inl rfl)).mpr ⟨item, hitem, hin,
          by rw [hside hmode], ?_⟩, rfl, rfl, rfl⟩
      rw [hmissing hd hnone rfl]
      rfl

/-- What is transferred is an included item of the sender. -/
theorem sent_of_mem (hdraft : draft ∈ planDrafts specification source destination)
    (hkind : draft.kind.Transfers) :
    SendsFrom specification draft.sourceSide ∧
      ∃ item ∈ (sendingInventory specification source destination draft.sourceSide).items,
        item.outcome = .included ∧
          item.relativePath.components = draft.relativePath.components := by
  unfold SendsFrom sendingInventory
  cases hmode : specification.mode with
  | mirror =>
      rw [planDrafts_mirror hmode] at hdraft
      refine ⟨nofun, ?_⟩
      rcases (mem_mirrorDrafts.mp hdraft).2 with ⟨item, hget, -, hin, heq⟩ |
        ⟨item, -, hget, hin, heq⟩
      · obtain ⟨hmem, hpath⟩ := getByPath_mem hget
        rw [heq]
        exact ⟨item, hmem, hin, hpath⟩
      · obtain ⟨hmem, hpath⟩ := getByPath_mem hget
        rw [heq]
        exact ⟨item, hmem, hin, hpath⟩
  | oneWay =>
      obtain ⟨item, hmem, hin, heq, -⟩ := (transfer_mem_oneWayDrafts hmode hkind).mp hdraft
      have hpath : draft.relativePath = item.relativePath :=
        congrArg ActionDraft.relativePath heq
      have hside : draft.sourceSide = .ofSource specification.source :=
        congrArg ActionDraft.sourceSide heq
      exact ⟨fun _ => hside, item, hmem, hin, by rw [hpath]⟩

/-- A receiver that has something else than a directory has nothing below it. -/
theorem item_none_below {inventory : SourceInventory} (h : w.InScope inventory)
    {names : List Name} {path : PathBuf} (hvalid : ∀ name ∈ names, ValidName name)
    (hleads : LeadsTo names path) {found : InventoryItem}
    (hfound : inventory.item (pathOf names) = some found)
    (htype : found.itemType ≠ .directory) : inventory.item path = none := by
  obtain ⟨hne, rest, hrest, hpath⟩ := hleads
  rw [Option.eq_none_iff_forall_ne_some]
  intro item hitem
  obtain ⟨hmem, hcomponents⟩ := SourceInventory.item_same hitem
  obtain ⟨above, habove, hnames, hdirectory, -⟩ :=
    h.ancestor hmem (hcomponents.trans hpath) hne hrest
  rw [h.item_eq_some.mpr ⟨habove, hnames.trans (components_pathOf hvalid).symm⟩,
    Option.some.injEq] at hfound
  exact htype (hfound ▸ hdirectory)

/-- The names above an item are names. -/
theorem validNames_of_leadsTo {inventory : SourceInventory} (h : w.InScope inventory)
    {item : InventoryItem} (hitem : item ∈ inventory.items) {names : List Name}
    (hleads : LeadsTo names item.relativePath) : ∀ name ∈ names, ValidName name := by
  obtain ⟨names', found, -, hvalid, rfl⟩ := h.named item hitem
  obtain ⟨-, rest, -, hpath⟩ := hleads
  rw [WalkScope.relativePath_itemAt, components_pathOf hvalid] at hpath
  have hnames : names' = names ++ rest :=
    List.map_injective_iff.mpr (fun _ _ h => Component.normal.inj h) hpath
  exact fun name hname => hvalid name (hnames ▸ List.mem_append_left _ hname)

theorem sendingInventory_inScope (hs : w.InScope source) (hd : w.InScope destination) :
    w.InScope (sendingInventory specification source destination side) := by
  unfold sendingInventory
  split <;> assumption

theorem receivingInventory_inScope (hs : w.InScope source) (hd : w.InScope destination) :
    w.InScope (receivingInventory specification source destination side) := by
  unfold receivingInventory
  split <;> assumption

/-- What is brought over at names above an action's path is brought over before
it. -/
theorem mem_earlier {earlier later : List PlanAction} {action : PlanAction}
    (hordered : ((earlier ++ action :: later).map PlanAction.draft).Pairwise DraftOrder)
    {names : List Name} (hleads : LeadsTo names action.relativePath)
    (hdraft : draft ∈ (earlier ++ action :: later).map PlanAction.draft)
    (hkind : draft.kind = .copyToDestination)
    (hpath : draft.relativePath.components = names.map Component.normal) :
    ∃ action' ∈ earlier, action'.draft = draft := by
  obtain ⟨-, rest, hrest, hbelow⟩ := hleads
  have hbefore : compare draft.relativePath.components action.relativePath.components = .lt := by
    rw [hpath, hbelow, List.map_append]
    exact compare_append (by simpa using hrest)
  rw [List.map_append, List.map_cons, List.mem_append, List.mem_cons] at hdraft
  rw [List.map_append, List.map_cons] at hordered
  rcases hdraft with hdraft | rfl | hdraft
  · exact List.mem_map.mp hdraft
  · exact absurd rfl (compare_lt_ne hbefore)
  · have hafter := (List.pairwise_append.mp hordered).2.1
    rcases (List.pairwise_cons.mp hafter).1 draft hdraft with hremoval | hle
    · rw [hkind] at hremoval
      cases hremoval
    · have hle : (compare action.relativePath.components
          draft.relativePath.components).isLE = true := hle
      rw [Std.OrientedOrd.eq_swap, hbefore] at hle
      cases hle

end

/-- **When a plan writes below directories.** Every ancestor of a Copy or Overwrite
is a directory of the peer it is written to, or is missing there and brought over
before, exactly when no included item of a sending peer lies below a place at which
the receiving peer has something else than a directory. -/
theorem written_below_directories_iff {w : WalkScope} {specification : ProcessSpecification}
    {peer peer' : String} {root root' : PathBuf} {tree tree' : FileTree}
    {source destination : SourceInventory} {actions : List PlanAction}
    (hsource : w.collectInventory peer root tree = .ok source)
    (hdestination : w.collectInventory peer' root' tree' = .ok destination)
    (hplan : buildPlan specification source destination = .ok actions) :
    WrittenBelowDirectories specification source destination actions ↔
      Unobstructed source destination ∧
        (specification.mode = .mirror → Unobstructed destination source) := by
  have hs := WalkScope.collectInventory_inScope hsource
  have hd := WalkScope.collectInventory_inScope hdestination
  obtain ⟨hactions, -⟩ := buildPlan_eq_ok.mp hplan
  have hdrafts : planDrafts specification source destination = actions.map PlanAction.draft := by
    rw [hactions, map_draft_numberDrafts]
  have hsides : (Unobstructed source destination ∧
      (specification.mode = .mirror → Unobstructed destination source)) ↔
      ∀ side, SendsFrom specification side →
        Unobstructed (sendingInventory specification source destination side)
          (receivingInventory specification source destination side) := by
    unfold SendsFrom sendingInventory receivingInventory
    cases hmode : specification.mode with
    | mirror =>
        constructor
        · rintro ⟨hforth, hback⟩ (_ | _) _
          · exact hforth
          · exact hback rfl
        · intro h
          exact ⟨h .peerA nofun, fun _ => h .peerB nofun⟩
    | oneWay =>
        constructor
        · intro h side _
          exact h.1
        · intro h
          exact ⟨h _ fun _ => rfl, nofun⟩
  rw [hsides]
  constructor
  · intro h side hside item hitem hin names hleads found hfound
    by_contra htype
    have hvalid := validNames_of_leadsTo (sendingInventory_inScope hs hd) hitem hleads
    have hnone := item_none_below (receivingInventory_inScope hs hd) hvalid hleads hfound htype
    obtain ⟨draft, hdraft, hkind, rfl, hpath⟩ := copied_of_missing hs hd hside hitem hin hnone
    rw [hdrafts] at hdraft
    obtain ⟨action, haction, rfl⟩ := List.mem_map.mp hdraft
    obtain ⟨earlier, later, hsplit⟩ := List.append_of_mem haction
    have hleads' : LeadsTo names action.relativePath := by
      obtain ⟨hne, rest, hrest, hbelow⟩ := hleads
      exact ⟨hne, rest, hrest, hpath.trans hbelow⟩
    rcases h earlier action later hsplit (.inl hkind) names hleads' with
      ⟨item', hitem', hdirectory⟩ | ⟨hmissing, -⟩
    · have heq := hfound.symm.trans hitem'
      exact htype ((Option.some.inj heq) ▸ hdirectory)
    · have heq := hfound.symm.trans hmissing
      cases heq
  · rintro h earlier action later hsplit hkind names hleads
    have hmem : action.draft ∈ planDrafts specification source destination := by
      rw [hdrafts, hsplit]
      simp
    obtain ⟨hside, item, hitem, hin, hpath⟩ := sent_of_mem hmem hkind
    have hsender : w.InScope
        (sendingInventory specification source destination action.sourceSide) :=
      sendingInventory_inScope hs hd
    have hleads' : LeadsTo names item.relativePath := by
      obtain ⟨hne, rest, hrest, hbelow⟩ := hleads
      exact ⟨hne, rest, hrest, hpath.trans hbelow⟩
    have hvalid := validNames_of_leadsTo hsender hitem hleads'
    cases hfound : (receivingInventory specification source destination
        action.sourceSide).item (pathOf names) with
    | some found => exact .inl ⟨found, hfound, h _ hside item hitem hin names hleads' found hfound⟩
    | none =>
        obtain ⟨hne, rest, hrest, hbelow⟩ := id hleads'
        obtain ⟨above, habove, hnames, hdirectory, hincluded⟩ :=
          hsender.ancestor hitem hbelow hne hrest
        have hmissing : (receivingInventory specification source destination
            action.sourceSide).item above.relativePath = none := by
          rw [SourceInventory.item_congr _ (hnames.trans (components_pathOf hvalid).symm), hfound]
        obtain ⟨draft, hdraft, hcopy, hdraftSide, hdraftPath⟩ := copied_of_missing hs hd hside
          habove (hincluded (by rw [hin]; decide)) hmissing
        have hordered : (planDrafts specification source destination).Pairwise DraftOrder :=
          planDrafts_ordered (sorted_of_collectInventory hsource)
        rw [hdrafts, hsplit] at hordered hdraft
        obtain ⟨action', haction', rfl⟩ :=
          mem_earlier hordered hleads hdraft hcopy (hdraftPath.trans hnames)
        refine .inr ⟨hfound, action', haction', .inl hcopy, hdraftSide, hdraftPath.trans hnames,
          above, ?_, hdirectory⟩
        exact hsender.item_eq_some.mpr ⟨habove, hdraftPath.symm⟩

/-! ### The directory `d` with a file, beside a link -/

def outwardLink : Found where
  itemType := .symlink
  metadata := ⟨4, some 0, false, some 0o777, some ⟨[47, 101, 116, 99]⟩⟩
  content := none
  inspectError := none
  listError := none

/-- The directory `d` with the file `x`. -/
def nestedTree : FileTree :=
  .ofEntries (.cons [100] plainDirectory (.cons [120] (plainFile zeroHash) .nil .nil) .nil)
    (by decide)

/-- `d` is a link to `/etc`. -/
def linkedTree : FileTree := .ofEntries (.cons [100] outwardLink .nil .nil) (by decide)

def nestedInventory : SourceInventory :=
  ⟨[inventoryItem ⟨[100]⟩ false plainDirectory,
    inventoryItem ⟨[100, 47, 120]⟩ false (plainFile zeroHash)]⟩

def linkedInventory : SourceInventory := ⟨[inventoryItem ⟨[100]⟩ false outwardLink]⟩

theorem collectInventory_nested : WalkScope.collectInventory ⟨.utf8, []⟩ "Laptop" ⟨[47, 97]⟩
    nestedTree = .ok nestedInventory := by
  decide +kernel

theorem collectInventory_linked : WalkScope.collectInventory ⟨.utf8, []⟩ "Server" ⟨[47, 98]⟩
    linkedTree = .ok linkedInventory := by
  decide +kernel

/-- Peer B is empty: the plan brings over `d` and then `d/x`. -/
theorem written_below_directories_nested : ∃ actions,
    buildPlan mirrorSpecification nestedInventory ⟨[]⟩ = .ok actions ∧
      WrittenBelowDirectories mirrorSpecification nestedInventory ⟨[]⟩ actions := by
  have hplan : buildPlan mirrorSpecification nestedInventory ⟨[]⟩ =
      .ok [⟨1, ⟨[100]⟩, .copyToDestination, .peerA, none⟩,
        ⟨2, ⟨[100, 47, 120]⟩, .copyToDestination, .peerA, some 5⟩] := by
    decide +kernel
  refine ⟨_, hplan, (written_below_directories_iff collectInventory_nested
    collectInventory_alone.2 hplan).mpr ⟨?_, ?_⟩⟩
  · intro _ _ _ _ _ _ hfound
    cases hfound
  · intro _ _ hitem
    cases hitem

/-- Peer B has the link: the plan copies `d/x` through it. -/
theorem written_through_link :
    ¬ ∀ (w : WalkScope) (specification : ProcessSpecification) (peer peer' : String)
      (root root' : PathBuf) (tree tree' : FileTree) (source destination : SourceInventory)
      (actions : List PlanAction), w.collectInventory peer root tree = .ok source →
        w.collectInventory peer' root' tree' = .ok destination →
        buildPlan specification source destination = .ok actions →
          WrittenBelowDirectories specification source destination actions := by
  intro h
  have hplan : buildPlan mirrorSpecification nestedInventory linkedInventory =
      .ok [⟨1, ⟨[100, 47, 120]⟩, .copyToDestination, .peerA, some 5⟩] := by
    decide +kernel
  have hwritten := h _ _ _ _ _ _ _ _ _ _ _ collectInventory_nested collectInventory_linked hplan
  have hleads : LeadsTo [[100]] ⟨[100, 47, 120]⟩ := ⟨by decide, [[120]], by decide, by decide⟩
  have hlink : linkedInventory.item (pathOf [[100]]) =
      some (inventoryItem ⟨[100]⟩ false outwardLink) := by
    decide +kernel
  rcases hwritten [] _ [] rfl (.inl rfl) [[100]] hleads with ⟨item, hitem, hdirectory⟩ | ⟨hnone, -⟩
  · obtain rfl := Option.some.inj (hlink.symm.trans hitem)
    cases hdirectory
  · exact absurd (hlink.symm.trans hnone) nofun

end SyncPlus
