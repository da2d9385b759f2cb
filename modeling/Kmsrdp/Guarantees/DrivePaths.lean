import Kmsrdp.Library.SeparatedPaths
import Kmsrdp.Source.Rdpdr.Mount
import Kmsrdp.Guarantees.DriveOperations

/-!
# Canonical paths in the tables and commands of a drive

A canonical path is the root, or components each behind one backslash, none of them empty, a single
or double dot, or with a slash, backslash, colon or NUL in it.
-/
namespace Kmsrdp.Guarantees.DrivePaths
open Library.Effects Library.SeparatedPaths Source.Rdpdr Guarantees.DriveOperations List Bridge
  AList

def Component (name : List Char) : Prop :=
  name ≠ [] ∧ name ≠ ['.'] ∧ name ≠ ['.', '.'] ∧
    ∀ c ∈ name, c ≠ '/' ∧ c ≠ '\\' ∧ c ≠ ':' ∧ c ≠ '\x00'

/-- One component or more, each behind a backslash. -/
def Inner (path : WinPath) : Prop :=
  ∃ components, components ≠ [] ∧ (∀ component ∈ components, Component component) ∧
    path = render '\\' components

def Canonical (path : WinPath) : Prop := path = rootPath ∨ Inner path

variable {name : List Char}

theorem component_of_isSafe (h : isSafeWinComponent name = true) : Component name := by
  simp only [isSafeWinComponent, decide_eq_true_eq] at h
  obtain ⟨hne, hdot, hdots, hchars⟩ := h
  refine ⟨hne, hdot, hdots, fun c hc => ?_⟩
  have hsafe : ¬ (c = '\\' ∨ c = '/' ∨ c = '\x00' ∨ c = ':') := fun hbad =>
    hchars (any_eq_true.mpr ⟨c, hc, decide_eq_true hbad⟩)
  tauto

theorem Component.free (h : Component name) : '\\' ∉ name := fun hmem =>
  (h.2.2.2 _ hmem).2.1 rfl

theorem canonical_root : Canonical rootPath := .inl rfl

variable {path : WinPath}

theorem Inner.ne_root (h : Inner path) : path ≠ rootPath := by
  rintro rfl
  obtain ⟨components, hne, hall, hpath⟩ := h
  obtain ⟨component, later, rfl⟩ := exists_cons_of_ne_nil hne
  obtain ⟨-, htail⟩ := cons.inj (hpath : '\\' :: [] = '\\' :: (component ++ render '\\' later))
  exact (hall component mem_cons_self).1 (append_eq_nil_iff.mp htail.symm).1

variable {parent : WinPath}

theorem Inner.child (h : Inner parent) (hname : Component name) :
    Inner (parent ++ '\\' :: name) := by
  obtain ⟨components, -, hall, rfl⟩ := h
  refine ⟨components ++ [name], by simp, fun component hmem => ?_,
    by rw [render_append, render_singleton]⟩
  rcases mem_append.mp hmem with hold | hnew
  · exact hall component hold
  · exact mem_singleton.mp hnew ▸ hname

theorem inner_top (hname : Component name) : Inner ('\\' :: name) :=
  ⟨[name], cons_ne_nil _ _, fun _ hmem => mem_singleton.mp hmem ▸ hname, (render_singleton name).symm⟩

theorem Canonical.child (h : Canonical parent) (hname : Component name) :
    Inner (if parent = rootPath then '\\' :: name else parent ++ '\\' :: name) := by
  split
  · exact inner_top hname
  · next hroot => exact (h.resolve_left hroot).child hname

theorem inner_joinWin (hparent : Canonical parent) (h : joinWin parent name = some path) :
    Inner path := by
  obtain ⟨hsafe, ⟨⟩⟩ := Option.ite_none_right_eq_some.mp h
  exact hparent.child (component_of_isSafe hsafe)

theorem component_star : Component ['*'] := by
  refine ⟨by decide, by decide, by decide, fun c hc => ?_⟩
  rw [mem_singleton.mp hc]
  decide

theorem beforeLastSeparator_of_free (h : '\\' ∉ name) : beforeLastSeparator name = none := by
  induction name with
  | nil => rfl
  | cons c rest ih =>
    rw [mem_cons, not_or] at h
    rw [beforeLastSeparator, ih h.2]
    exact if_neg (Ne.symm h.1)

theorem beforeLastSeparator_append (front : List Char) (h : '\\' ∉ name) :
    beforeLastSeparator (front ++ '\\' :: name) = some front := by
  induction front with
  | nil =>
    rw [nil_append, beforeLastSeparator, beforeLastSeparator_of_free h]
    rfl
  | cons c rest ih => rw [cons_append, beforeLastSeparator, ih]

theorem Inner.ne_nil (h : Inner path) : path ≠ [] := by
  rintro rfl
  obtain ⟨components, hne, -, hpath⟩ := h
  exact hne (render_eq_nil hpath.symm)

theorem parentOf_append {front : WinPath} (hname : Component name) :
    parentOf (front ++ '\\' :: name) = if front = [] then rootPath else front := by
  have hne : front ++ '\\' :: name ≠ rootPath := by
    intro heq
    cases front with
    | nil => exact hname.1 (cons.inj heq).2
    | cons c rest => exact append_ne_nil_of_right_ne_nil _ (cons_ne_nil _ _) (cons.inj heq).2
  rw [parentOf, if_neg hne, beforeLastSeparator_append front hname.free]
  cases front <;> rfl

theorem parentOf_joinWin (hparent : Canonical parent) (h : joinWin parent name = some path) :
    parentOf path = parent := by
  obtain ⟨hsafe, ⟨⟩⟩ := Option.ite_none_right_eq_some.mp h
  have hname := component_of_isSafe hsafe
  by_cases hroot : parent = rootPath
  · rw [if_pos hroot, hroot]
    exact (parentOf_append hname : parentOf ([] ++ '\\' :: name) = _)
  · rw [if_neg hroot, parentOf_append hname, if_neg (hparent.resolve_left hroot).ne_nil]

theorem canonical_parentOf (h : Canonical path) : Canonical (parentOf path) := by
  rcases h with rfl | ⟨components, hne, hall, rfl⟩
  · exact canonical_root
  · obtain ⟨before, last, rfl⟩ : ∃ before last, components = before ++ [last] :=
      ⟨_, _, (dropLast_append_getLast hne).symm⟩
    have hlast : Component last := hall last (mem_append_right _ (mem_singleton_self _))
    rw [render_append, render_singleton, parentOf_append hlast]
    cases before with
    | nil => exact canonical_root
    | cons component later =>
      exact .inr ⟨component :: later, cons_ne_nil _ _,
        fun other hother => hall other (mem_append_left _ hother), rfl⟩

theorem Inner.append {more : WinPath} (h : Inner path) (hmore : Inner more) :
    Inner (path ++ more) := by
  obtain ⟨components, hne, hall, rfl⟩ := h
  obtain ⟨later, -, hlater, rfl⟩ := hmore
  refine ⟨components ++ later, append_ne_nil_of_left_ne_nil hne _, fun component hmem => ?_,
    (render_append _ _).symm⟩
  exact (mem_append.mp hmem).elim (hall component) (hlater component)

theorem Canonical.behind {front rest : WinPath}
    (h : Canonical path)
    (hfront : front ≠ [])
    (hpath : front ++ '\\' :: rest = path) : Inner ('\\' :: rest) := by
  rcases h with rfl | ⟨components, -, hall, rfl⟩
  · obtain ⟨c, later, rfl⟩ := exists_cons_of_ne_nil hfront
    exact absurd (cons.inj hpath).2 (append_ne_nil_of_right_ne_nil _ (cons_ne_nil _ _))
  · obtain ⟨before, after, rfl, -, hafter⟩ :=
      render_eq_append_cons (fun component hmem => (hall component hmem).free) hpath.symm
    refine ⟨after, ?_, fun component hmem => hall component (mem_append_right _ hmem), hafter.symm⟩
    rintro rfl
    cases hafter

variable {oldPath newPath : WinPath}

theorem canonical_movedPath {moved : WinPath}
    (hpath : Canonical path)
    (hold : Inner oldPath)
    (hnew : Inner newPath)
    (h : movedPath oldPath newPath path = some moved) : Canonical moved := by
  unfold movedPath at h
  rw [if_neg hold.ne_root] at h
  dsimp only at h
  split at h
  · cases h
    exact .inr hnew
  · split at h
    · next hbelow =>
      cases h
      obtain ⟨rest, hrest⟩ := isPrefixOf_iff_prefix.mp hbelow
      have htail : path.drop (oldPath ++ ['\\']).length = rest := by rw [← hrest, drop_left]
      rw [htail]
      rw [append_assoc] at hrest
      exact .inr (hnew.append (hpath.behind hold.ne_nil hrest))
    · cases h

theorem component_exchange (tag : Nat) :
    Component (".__kmsrdp_xchg_".toList ++ Nat.toDigits 10 tag) := by
  have hletters : (".__kmsrdp_xchg_".toList.all fun c => c ≠ '/' ∧ c ≠ '\\' ∧ c ≠ ':' ∧
      c ≠ '\x00') = true := by
    decide +kernel
  refine ⟨cons_ne_nil _ _, ?_, ?_, fun c hc => ?_⟩
  · intro heq
    cases heq
  · intro heq
    cases heq
  · rcases mem_append.mp hc with hletter | hdigit
    · exact of_decide_eq_true (all_eq_true.mp hletters c hletter)
    · have hd := Nat.isDigit_of_mem_toDigits (by decide) (by decide) hdigit
      refine ⟨?_, ?_, ?_, ?_⟩ <;> (rintro rfl; revert hd; decide)

theorem inner_exchangeName {pathA : WinPath}
    (h : Canonical pathA)
    (hparent : parentOf pathA ≠ rootPath)
    (tag : Nat) : Inner (exchangeName pathA tag) := by
  have hname : exchangeName pathA tag = parentOf pathA ++
      '\\' :: (".__kmsrdp_xchg_".toList ++ Nat.toDigits 10 tag) :=
    append_assoc _ _ _
  rw [hname]
  exact ((canonical_parentOf h).resolve_left hparent).child (component_exchange tag)

theorem not_canonical_exchangeName {pathA : WinPath}
    (hparent : parentOf pathA = rootPath)
    (tag : Nat) : ¬ Canonical (exchangeName pathA tag) := by
  have hname : exchangeName pathA tag =
      '\\' :: '\\' :: (".__kmsrdp_xchg_".toList ++ Nat.toDigits 10 tag) := by
    rw [exchangeName, hparent]
    rfl
  rw [hname]
  rintro (hroot | ⟨components, hne, hall, hpath⟩)
  · cases hroot
  · obtain ⟨component, later, rfl⟩ := exists_cons_of_ne_nil hne
    have hcomponent := hall component mem_cons_self
    obtain ⟨c, rest, rfl⟩ := exists_cons_of_ne_nil hcomponent.1
    have hc : '\\' = c := (cons.inj (cons.inj hpath).2).1
    exact hcomponent.free (hc ▸ mem_cons_self)

structure Tables (b : Bridge) : Prop where
  numbers : ∀ deviceId ino path, b.pathFor deviceId ino = some path → Canonical path
  paths : ∀ deviceId path ino, b.pathToIno.lookup (deviceId, path) = some ino → Canonical path

theorem tables_new (uid gid : Nat) : Tables (.new uid gid) where
  numbers _ _ _ h := by simp [new, pathFor] at h
  paths _ _ _ h := by simp [new] at h

variable {b : Bridge} (deviceId : Nat)
section
variable (h : Tables b)
include h

theorem Tables.of_eq {b' : Bridge}
    (hpath : b'.pathToIno = b.pathToIno)
    (hino : b'.inoToPath = b.inoToPath) : Tables b' where
  numbers deviceId ino path hlookup := h.numbers deviceId ino path (by rwa [pathFor, hino] at hlookup)
  paths deviceId path ino hlookup := h.paths deviceId path ino (by rwa [hpath] at hlookup)

theorem Tables.enter (hpath : Canonical path) (deviceId ino nextIno : Nat) :
    Tables (b.enter deviceId path ino nextIno) where
  numbers deviceId' ino' path' hlookup := by
    by_cases hkey : deviceId' = deviceId ∧ ino' = ino
    · obtain ⟨rfl, rfl⟩ := hkey
      rw [pathFor_enter] at hlookup
      cases hlookup
      exact hpath
    · rw [pathFor_enter_ne b path nextIno hkey] at hlookup
      exact h.numbers deviceId' ino' path' hlookup
  paths deviceId' path' ino' hlookup := by
    by_cases hkey : (deviceId', path') = (deviceId, path)
    · cases hkey
      exact hpath
    · exact h.paths deviceId' path' ino' ((lookup_insert_ne hkey).symm.trans hlookup)

theorem Tables.inodeFor (hpath : Canonical path) : Tables (b.inodeFor deviceId path).2 := by
  cases hfree : b.pathToIno.lookup (deviceId, path) with
  | some ino =>
    simp only [Bridge.inodeFor, hfree]
    exact h
  | none =>
    obtain ⟨ino, nextIno, -, heq⟩ := inodeFor_eq_enter hfree
    rw [heq]
    exact h.enter hpath deviceId ino nextIno

theorem Tables.ensureRootIno : Tables (b.ensureRootIno deviceId) := by
  unfold Bridge.ensureRootIno
  split
  · exact h
  · exact (h.enter canonical_root deviceId rootIno b.nextIno).of_eq rfl rfl

theorem Tables.forgetPath (path : WinPath) : Tables (b.forgetPath deviceId path) where
  numbers deviceId' ino path' hlookup := h.numbers deviceId' ino path' (pathFor_of_forgetPath hlookup)
  paths deviceId' path' ino hlookup := by
    have hkey : (deviceId', path') ≠ (deviceId, path) := by
      intro heq
      rw [heq] at hlookup
      exact Option.some_ne_none _ (hlookup.symm.trans (lookup_erase _ _))
    exact h.paths deviceId' path' ino ((lookup_erase_ne hkey).symm.trans hlookup)

theorem Tables.remapEntry {remap : WinPath × WinPath × Nat} (hnew : Canonical remap.2.1) :
    Tables (b.remapEntry deviceId remap) where
  numbers deviceId' ino path hlookup := by
    by_cases hkey : deviceId' = deviceId ∧ ino = remap.2.2
    · obtain ⟨rfl, rfl⟩ := hkey
      rw [pathFor_remapEntry] at hlookup
      cases hlookup
      exact hnew
    · rw [pathFor_remapEntry_ne b remap hkey] at hlookup
      exact h.numbers deviceId' ino path hlookup
  paths deviceId' path ino hlookup := by
    by_cases hkey : (deviceId', path) = (deviceId, remap.2.1)
    · cases hkey
      exact hnew
    · have herased := (lookup_insert_ne hkey).symm.trans hlookup
      by_cases hold : (deviceId', path) = (deviceId, remap.1)
      · rw [hold, lookup_erase] at herased
        cases herased
      · exact h.paths deviceId' path ino ((lookup_erase_ne hold).symm.trans herased)

theorem Tables.foldl_remapEntry {remaps : List (WinPath × WinPath × Nat)}
    (hremaps : ∀ remap ∈ remaps, Canonical remap.2.1) :
    Tables (remaps.foldl (Bridge.remapEntry deviceId) b) := by
  induction remaps generalizing b with
  | nil => exact h
  | cons remap rest ih =>
    exact ih (h.remapEntry deviceId (hremaps remap mem_cons_self)) fun other hother =>
      hremaps other (mem_cons_of_mem _ hother)

theorem Tables.remapPath {entries : List PathEntry}
    (hperm : entries.Perm b.pathToIno.entries)
    (deviceId : Nat)
    (hold : Inner oldPath)
    (hnew : Inner newPath) : Tables (b.remapPath entries deviceId oldPath newPath) := by
  refine h.foldl_remapEntry deviceId fun remap hremap => ?_
  obtain ⟨⟨⟨deviceId', path⟩, ino⟩, hmem, hof⟩ := mem_filterMap.mp hremap
  unfold remapOf at hof
  split at hof
  · obtain ⟨moved, hmoved, rfl⟩ := Option.map_eq_some_iff.mp hof
    exact canonical_movedPath (h.paths _ _ _ (mem_lookup_iff.mpr (hperm.mem_iff.mp hmem))) hold
      hnew hmoved
  · cases hof

end

/-! ## The operations

What an operation has sent names canonical paths only, and it leaves such tables behind. -/

def CanonicalCommand (command : DriveCommand) : Prop := ∀ path ∈ pathsOf command, Canonical path

structure Clean (s : FuseState) : Prop where
  tables : Tables s.bridge
  sent : ∀ command ∈ s.sent, CanonicalCommand command

theorem Clean.of_eq {s t : FuseState}
    (h : Clean s)
    (hpath : t.bridge.pathToIno = s.bridge.pathToIno)
    (hino : t.bridge.inoToPath = s.bridge.inoToPath)
    (hsent : t.sent = s.sent) : Clean t :=
  ⟨h.tables.of_eq hpath hino, hsent ▸ h.sent⟩

theorem Clean.send {s : FuseState}
    (h : Clean s)
    {command : DriveCommand}
    (hcommand : CanonicalCommand command) :
    Clean { s with replies := s.replies.tail, sent := s.sent ++ [command] } := by
  refine ⟨h.tables, fun sent hsent => ?_⟩
  rcases mem_append.mp hsent with hold | hnew
  · exact h.sent sent hold
  · exact mem_singleton.mp hnew ▸ hcommand

theorem keeps_recordOpen (site : Site) (fileId : Nat) : Keeps Clean (recordOpen site fileId) :=
  meets_bind (keeps_onBridge fun _ hs => hs.of_eq rfl rfl rfl) fun _ =>
    meets_bind (meets_modify fun _ hs => ⟨hs.tables, hs.sent⟩) fun _ => keeps_pure _

theorem keeps_remapPath (site : Site) (hold : Inner oldPath) (hnew : Inner newPath) :
    Keeps Clean (remapPath site oldPath newPath) :=
  meets_modify fun s hs =>
    ⟨hs.tables.remapPath (s.visits.perm s.bridge.nextTag _) site.deviceId hold hnew, hs.sent⟩

theorem rules_clean (site : Site) : Rules site (fun _ => Clean) Canonical Inner where
  fine := .inr
  parent := canonical_parentOf
  child := inner_joinWin
  pattern := fun h => .inr (h.child component_star)
  subset hs _ := hs
  path hs hpath := ⟨hs, hs.tables.numbers _ _ _ hpath⟩
  tag hs := hs.of_eq rfl rfl rfl
  send hs hcommand := hs.send hcommand
  metas _ hs := hs.of_eq rfl rfl rfl
  root hs := ⟨hs.tables.ensureRootIno _, hs.sent⟩
  number hs hpath := ⟨hs.tables.inodeFor _ hpath, hs.sent⟩
  answer hs _ := hs.of_eq rfl rfl rfl
  opens := keeps_recordOpen site
  closes _ hs := hs.of_eq rfl rfl rfl
  forgets hs _ := ⟨hs.tables.forgetPath _ _, hs.sent⟩
  moves := keeps_remapPath site

section Renames
variable {site : Site} {oldPath newPath pathA pathB : WinPath}

/-- The client does not open the file that is asked for first. -/
def Refused (replies : List ClientReply) : Prop :=
  ∀ fileId, replies.head? ≠ some (.create (.ok fileId))

theorem meets_submitCreate_refused (h : Canonical path) (access disposition options : Nat) :
    Meets (fun s => Clean s ∧ Refused s.replies)
      (submitCreate site.deviceId path access disposition options) (fun _ _ => False) Clean := by
  intro s hs
  have hkeeps : Keeps Clean (submitCreate site.deviceId path access disposition options) :=
    @Rules.keeps_submitCreate _ _ _ _ [] _ (rules_clean site) h _ access disposition options
  have hclean := hkeeps s hs.1
  have hrefused := hs.2
  obtain ⟨bridge, kernel, visits, replies, sent⟩ := s
  cases replies with
  | nil => exact hclean
  | cons reply rest =>
    cases reply with
    | create result =>
      cases result with
      | ok fileId => exact absurd rfl (hrefused fileId)
      | error status => exact hclean
    | _ => exact hclean

theorem meets_exchangePaths_refused (hA : Inner pathA) :
    Meets (fun s => Clean s ∧ Refused s.replies) (exchangePaths site pathA pathB) (fun _ => Clean)
      Clean := by
  have htag : Meets (fun s => Clean s ∧ Refused s.replies) allocTag
      (fun _ s => Clean s ∧ Refused s.replies) Clean :=
    meets_modifyGet fun s hs => ⟨⟨hs.1.tables.of_eq rfl rfl, hs.1.sent⟩, hs.2⟩
  refine meets_bind htag fun tag => ?_
  have hrename : Meets (fun s => Clean s ∧ Refused s.replies)
      (renamePath site pathA (exchangeName pathA tag) false) (fun _ _ => False) Clean :=
    meets_bind (meets_submitCreate_refused (.inr hA) _ _ _) fun _ _ hs => hs.elim
  exact meets_bind hrename fun _ _ hs => hs.elim

/-! What has been sent stays sent. -/

/-- A command that names the temporary name of an exchange has been sent. -/
def Exchanging (pathA : WinPath) (s : FuseState) : Prop :=
  ∃ command ∈ s.sent, ∃ tag, exchangeName pathA tag ∈ pathsOf command

theorem keeps_exchanging_submit (command : Nat → DriveCommand) :
    Keeps (Exchanging pathA) (submit command) := by
  refine meets_bind (keeps_onBridge fun _ hs => hs) fun tag => meets_modifyGet fun s hs => ?_
  obtain ⟨sent, hmem, hnames⟩ := hs
  exact ⟨sent, mem_append_left _ hmem, hnames⟩

theorem keeps_exchanging_finish (fileId : Nat) (result : Except Errno Unit) :
    Keeps (Exchanging pathA) (do
      let _ ← attempt (submitClose site.deviceId fileId)
      match result with
      | .ok () => remapPath site oldPath newPath
      | .error e => throw e) := by
  refine meets_bind (keeps_attempt (meets_submitFor_of (keeps_exchanging_submit _) _)) fun _ => ?_
  cases result with
  | ok _ => exact meets_modify fun s hs => hs
  | error e => exact keeps_throw e

theorem keeps_exchanging_renamePath (replace : Bool) :
    Keeps (Exchanging pathA) (renamePath site oldPath newPath replace) := by
  refine meets_bind (keeps_submitCreate_of (keeps_exchanging_submit _)) fun fileId => ?_
  refine meets_bind (keeps_attempt (meets_submitFor_of (keeps_exchanging_submit _) _)) fun result => ?_
  exact keeps_exchanging_finish fileId result

theorem meets_renamePath_exchangeName (tag fileId : Nat) :
    Meets (fun s => s.replies.head? = some (.create (.ok fileId)))
      (renamePath site pathA (exchangeName pathA tag) false) (fun _ => Exchanging pathA)
      (Exchanging pathA) := by
  have hcreate : Meets (fun s => s.replies.head? = some (.create (.ok fileId)))
      (submitCreate site.deviceId pathA (fileReadData ||| synchronize) fileOpen
        fileSynchronousIoNonalert)
      (fun _ _ => True) (Exchanging pathA) := by
    intro s hs
    obtain ⟨bridge, kernel, visits, replies, sent⟩ := s
    cases replies with
    | nil => cases hs
    | cons reply rest =>
      cases hs
      trivial
  have hsubmit : ∀ opened, Meets (fun _ => True)
      (submit (.setInformation site.deviceId opened (.rename (exchangeName pathA tag) false)))
      (fun _ => Exchanging pathA) (Exchanging pathA) := by
    intro opened
    have htag : Meets (fun _ => True) allocTag (fun _ _ => True) (Exchanging pathA) :=
      meets_modifyGet fun _ _ => trivial
    refine meets_bind htag fun request => meets_modifyGet fun s _ => ?_
    exact ⟨_, mem_append_right _ (mem_singleton_self _), tag, mem_singleton_self _⟩
  refine meets_bind hcreate fun opened => ?_
  refine meets_bind (meets_attempt (meets_submitFor_of (hsubmit opened) _)) fun result => ?_
  exact keeps_exchanging_finish opened result

theorem meets_exchangePaths_sends (fileId : Nat) :
    Meets (fun s => s.replies.head? = some (.create (.ok fileId))) (exchangePaths site pathA pathB)
      (fun _ => Exchanging pathA) (Exchanging pathA) := by
  have htag : Meets (fun s => s.replies.head? = some (.create (.ok fileId))) allocTag
      (fun _ s => s.replies.head? = some (.create (.ok fileId))) (Exchanging pathA) :=
    meets_modifyGet fun _ hs => hs
  refine meets_bind htag fun tag => ?_
  refine meets_bind (meets_renamePath_exchangeName tag fileId) fun _ => ?_
  refine meets_bind (keeps_attempt (keeps_exchanging_renamePath false)) fun result => ?_
  cases result with
  | ok _ => exact keeps_exchanging_renamePath false
  | error e =>
    exact meets_bind (keeps_attempt (keeps_exchanging_renamePath false)) fun _ => keeps_throw e

end Renames
section Operations
variable (site : Site)

/-- The tables and the answers that are still to come, as they are before an operation. -/
def Before (b : Bridge) (replies : List ClientReply) (s : FuseState) : Prop :=
  Clean s ∧ s.bridge = b ∧ s.replies = replies

/-- An exchange whose first file is in the root, and which the client lets start: both parents
are known, both names are safe, and the first file can be opened. -/
def SwapsInRoot (b : Bridge) (request : Request) : Prop :=
  ∃ parent name newparent newname flags pathA newParentPath pathB fileId,
    request.operation = .rename parent (some name) newparent (some newname) flags ∧
      flags.whiteout = false ∧ flags.exchange = true ∧
      b.pathFor site.deviceId parent = some rootPath ∧ joinWin rootPath name = some pathA ∧
      b.pathFor site.deviceId newparent = some newParentPath ∧
        joinWin newParentPath newname = some pathB ∧
      request.replies.head? = some (.create (.ok fileId))

variable {b : Bridge} {replies : List ClientReply}

theorem meets_pathOf_before (ino : Nat) :
    Meets (Before b replies) (pathOf site ino)
      (fun path s => Before b replies s ∧ Canonical path ∧ b.pathFor site.deviceId ino = some path)
      Clean := by
  refine meets_mono (meets_pathOf site ino) ?_ fun _ h => h.1
  rintro path s ⟨⟨hclean, rfl, hreplies⟩, hpath⟩
  exact ⟨⟨hclean, rfl, hreplies⟩, hclean.tables.numbers _ _ _ hpath, hpath⟩

theorem meets_orElse_before {α : Type} (found : Option α) (e : Errno) :
    Meets (Before b replies) (orElse found e) (fun a s => Before b replies s ∧ found = some a)
      Clean :=
  meets_mono (meets_orElse found e) (fun _ _ h => h) fun _ h => h.1

theorem meets_rename (visits : VisitOrder) (parent : Nat) (name : Option (List Char))
    (newparent : Nat) (newname : Option (List Char)) (flags : RenameFlags)
    (hsafe : ¬ SwapsInRoot site b ⟨.rename parent name newparent newname flags, visits, replies⟩) :
    Meets (Before b replies) (rename site parent name newparent newname flags) (fun _ => Clean)
      Clean := by
  refine meets_bind (meets_pathOf_before site parent) fun parentPath => meets_of_fact fun hparent => ?_
  refine meets_bind (meets_pathOf_before site newparent) fun newParentPath =>
    meets_of_fact fun hnewparent => ?_
  refine meets_bind (meets_orElse_before name _) fun oldName => meets_of_fact fun hname => ?_
  refine meets_bind (meets_orElse_before newname _) fun newName => meets_of_fact fun hnewname => ?_
  refine meets_bind (meets_orElse_before _ _) fun oldPath => meets_of_fact fun hold => ?_
  refine meets_bind (meets_orElse_before _ _) fun newPath => meets_of_fact fun hnew => ?_
  have hinner : Inner oldPath := inner_joinWin hparent.1 hold
  have hinner' : Inner newPath := inner_joinWin hnewparent.1 hnew
  split
  · exact meets_throw fun _ hs => hs.1
  · next hwhiteout =>
    split
    · next hexchange =>
      by_cases hroot : parentPath = rootPath
      · -- nothing is renamed before the client has opened the first file
        have hrefused : Refused replies := by
          intro fileId hhead
          subst hname hnewname hroot
          exact hsafe ⟨_, _, _, _, _, _, _, _, fileId, rfl, Bool.eq_false_iff.mpr hwhiteout, hexchange,
            hparent.2, hold, hnewparent.2, hnew, hhead⟩
        have hswap : Meets (Before b replies) (exchangePaths site oldPath newPath)
            (fun _ => Clean) Clean :=
          fun s hs => meets_exchangePaths_refused hinner s ⟨hs.1, hs.2.2 ▸ hrefused⟩
        exact meets_bind hswap fun _ => keeps_pure _
      · have hne : parentOf oldPath ≠ rootPath := parentOf_joinWin hparent.1 hold ▸ hroot
        have hswap : Meets (Before b replies) (exchangePaths site oldPath newPath)
            (fun _ => Clean) Clean :=
          fun s hs => (rules_clean site).keeps_exchangePaths hinner hinner'
            (inner_exchangeName (.inr hinner) hne) s hs.1
        exact meets_bind hswap fun _ => keeps_pure _
    · exact fun s hs => (rules_clean site).keeps_replace hinner hinner' flags.noreplace s hs.1

variable {request : Request}

theorem meets_perform (hsafe : ¬ SwapsInRoot site b request) :
    Meets (Before b request.replies) (request.operation.perform site) (fun _ => Clean) Clean := by
  obtain ⟨operation, visits, replies⟩ := request
  cases operation
  case rename parent name newparent newname flags =>
    exact meets_rename site visits parent name newparent newname flags hsafe
  all_goals exact fun s hs => (rules_clean site).keeps_perform _ (by simp) s hs.1

theorem clean_run (hb : Tables b) (hsafe : ¬ SwapsInRoot site b request) (kernel : Kernel) :
    Clean (request.run site b kernel).2 :=
  (meets_perform site hsafe).afterwards ⟨⟨hb, fun _ hmem => absurd hmem not_mem_nil⟩, rfl, rfl⟩

theorem meets_orElse_some {α : Type} {inv failed : FuseState → Prop} {found : Option α} {a : α}
    (h : found = some a)
    (e : Errno) : Meets inv (orElse found e) (fun x s => inv s ∧ a = x) failed := by
  subst h
  exact meets_pure fun _ hs => ⟨hs, rfl⟩

/-- The tables before an operation whose first open the client grants. -/
def Granted (b : Bridge) (fileId : Nat) (s : FuseState) : Prop :=
  s.bridge = b ∧ s.replies.head? = some (.create (.ok fileId))

theorem meets_pathOf_granted {failed : FuseState → Prop} {fileId ino : Nat}
    (h : b.pathFor site.deviceId ino = some path) :
    Meets (Granted b fileId) (pathOf site ino) (fun found s => Granted b fileId s ∧ path = found)
      failed := by
  rintro s ⟨rfl, hs⟩
  have hfound : Meets (Granted s.bridge fileId) (orElse (s.bridge.pathFor site.deviceId ino) .enoent)
      (fun found t => Granted s.bridge fileId t ∧ path = found) failed := meets_orElse_some h _
  exact hfound s ⟨rfl, hs⟩

theorem exchanging_run (hswap : SwapsInRoot site b request) (kernel : Kernel) :
    ∃ command ∈ (request.run site b kernel).2.sent, ¬ CanonicalCommand command := by
  obtain ⟨operation, visits, replies⟩ := request
  obtain ⟨parent, name, newparent, newname, flags, pathA, newParentPath, pathB, fileId, hop,
    hwhiteout, hexchange, hparent, hA, hnewparent, hB, hhead⟩ := hswap
  cases hop
  have hrename : Meets (Granted b fileId)
      (rename site parent (some name) newparent (some newname) flags)
      (fun _ => Exchanging pathA) (Exchanging pathA) := by
    refine meets_bind (meets_pathOf_granted site hparent) fun _ => meets_of_fact ?_
    rintro rfl
    refine meets_bind (meets_pathOf_granted site hnewparent) fun _ => meets_of_fact ?_
    rintro rfl
    refine meets_bind (meets_orElse_some rfl _) fun _ => meets_of_fact ?_
    rintro rfl
    refine meets_bind (meets_orElse_some rfl _) fun _ => meets_of_fact ?_
    rintro rfl
    refine meets_bind (meets_orElse_some hA _) fun _ => meets_of_fact ?_
    rintro rfl
    refine meets_bind (meets_orElse_some hB _) fun _ => meets_of_fact ?_
    rintro rfl
    rw [hwhiteout, hexchange]
    have hexchanged : Meets (Granted b fileId) (exchangePaths site pathA pathB)
        (fun _ => Exchanging pathA)
        (Exchanging pathA) := fun s hs => meets_exchangePaths_sends fileId s hs.2
    exact meets_bind hexchanged fun _ => keeps_pure _
  have hstart : Granted b fileId ⟨b, kernel, visits, replies, []⟩ := ⟨rfl, hhead⟩
  obtain ⟨command, hmem, tag, hnames⟩ := hrename.afterwards hstart
  refine ⟨command, hmem, fun hcanonical => ?_⟩
  exact not_canonical_exchangeName (parentOf_joinWin canonical_root hA) tag (hcanonical _ hnames)

end Operations
end Kmsrdp.Guarantees.DrivePaths
