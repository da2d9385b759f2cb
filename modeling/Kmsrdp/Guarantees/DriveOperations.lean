import Kmsrdp.Source.Rdpdr.FuseFs

/-!
# What the operations of a drive keep

The operations of the file system are put together from a few steps on the bridge. Where those keep
an assertion (`Rules`), every operation keeps it, whatever the client answers.
-/
namespace Kmsrdp.Guarantees.DriveOperations
open Library.Effects Source.Rdpdr List

def pathsOf : DriveCommand → List WinPath
  | .create _ path _ _ _ _ => [path]
  | .queryDirectory _ _ path _ => path.toList
  | .setInformation _ _ (.rename newPath _) _ => [newPath]
  | _ => []

abbrev Seen := List (Nat × WinPath)

def seen (known : Seen) (path : WinPath) : Option FileAttr → Seen
  | some attr => (attr.ino, path) :: known
  | none => known

def listed (items : List (WinPath × DirItem)) : Seen :=
  items.map fun item => (item.2.ino, item.1)

structure Rules (site : Site) (inv : Seen → FuseState → Prop) (Fine Below : WinPath → Prop) :
    Prop where
  fine {path : WinPath} : Below path → Fine path
  parent {path : WinPath} : Fine path → Fine (parentOf path)
  child {parent path : WinPath} {name : List Char} : Fine parent → joinWin parent name = some path →
    Below path
  pattern {parent : WinPath} : Fine parent →
    Fine (if parent = rootPath then ['\\', '*'] else parent ++ ['\\', '*'])
  subset {known known' : Seen} {s : FuseState} : inv known s → known' ⊆ known → inv known' s
  path {known : Seen} {s : FuseState} {ino : Nat} {path : WinPath} : inv known s →
    s.bridge.pathFor site.deviceId ino = some path → inv ((ino, path) :: known) s ∧ Fine path
  tag {known : Seen} {s : FuseState} : inv known s →
    inv known { s with bridge := { s.bridge with nextTag := s.bridge.nextTag + 1 } }
  send {known : Seen} {s : FuseState} {command : DriveCommand} : inv known s →
    (∀ path ∈ pathsOf command, Fine path) →
    inv known { s with replies := s.replies.tail, sent := s.sent ++ [command] }
  metas {known : Seen} {s : FuseState} (metas : Table (Nat × WinPath) CachedMeta) :
    inv known s → inv known { s with bridge := { s.bridge with metas := metas } }
  root {known : Seen} {s : FuseState} : inv known s →
    inv known { s with bridge := s.bridge.ensureRootIno site.deviceId }
  number {known : Seen} {s : FuseState} {path : WinPath} : inv known s → Fine path →
    inv (((s.bridge.inodeFor site.deviceId path).1, path) :: known)
      { s with bridge := (s.bridge.inodeFor site.deviceId path).2 }
  answer {known : Seen} {s : FuseState} {number : Nat} {path : WinPath} : inv known s →
    (number, path) ∈ known → inv known { s with kernel := s.kernel.hasInode site number path }
  opens {known : Seen} (fileId : Nat) : Keeps (inv known) (recordOpen site fileId)
  closes {s : FuseState} (fh : Nat) : inv [] s →
    inv [] { s with bridge := { s.bridge with opens := s.bridge.opens.erase fh } }
  forgets {s : FuseState} {path : WinPath} : inv [] s → Fine path →
    inv [] { s with bridge := s.bridge.forgetPath site.deviceId path }
  moves {oldPath newPath : WinPath} : Below oldPath → Below newPath →
    Keeps (inv []) (remapPath site oldPath newPath)

section Unchanged
variable {α : Type} {inv : FuseState → Prop}

theorem keeps_pure (a : α) : Keeps inv (pure a : Fuse α) := meets_pure fun _ hs => hs

theorem keeps_throw (e : Errno) : Keeps inv (throw e : Fuse α) := meets_throw fun _ hs => hs

theorem meets_orElse (found : Option α) (e : Errno) :
    Meets inv (orElse found e) (fun a s => inv s ∧ found = some a) inv := by
  cases found with
  | some a => exact meets_pure fun _ hs => ⟨hs, rfl⟩
  | none => exact meets_throw fun _ hs => hs

theorem keeps_orElse (found : Option α) (e : Errno) : Keeps inv (orElse found e) :=
  meets_mono (meets_orElse found e) (fun _ _ h => h.1) fun _ h => h

theorem keeps_handleOf (fh : Nat) : Keeps inv (handleOf fh) :=
  meets_bind (meets_get fun _ hs => hs) fun _ => keeps_orElse _ _

theorem keeps_updateBridge {f : Bridge → Bridge}
    (h : ∀ s, inv s → inv { s with bridge := f s.bridge }) : Keeps inv
      (updateBridge f) := meets_modify h

theorem keeps_onBridge {f : Bridge → α × Bridge}
    (h : ∀ s, inv s → inv { s with bridge := (f s.bridge).2 }) : Keeps inv
      (onBridge f) := meets_modifyGet h

theorem meets_pathOf (site : Site) (ino : Nat) :
    Meets inv (pathOf site ino)
      (fun path s => inv s ∧ s.bridge.pathFor site.deviceId ino = some path) inv := by
  have hget : Meets inv (get : Fuse FuseState) (fun s t => t = s ∧ inv t) inv :=
    meets_get fun _ hs => ⟨rfl, hs⟩
  refine meets_bind hget fun s => meets_mono (meets_orElse _ _) ?_ fun _ h => h.2
  rintro path t ⟨⟨rfl, ht⟩, hpath⟩
  exact ⟨ht, hpath⟩

end Unchanged

theorem keeps_submitCreate_of {inv : FuseState → Prop} {deviceId access disposition options : Nat}
    {path : WinPath}
    (h : Keeps inv (submit (.create deviceId path access disposition options))) :
    Keeps inv (submitCreate deviceId path access disposition options) := by
  refine meets_bind h fun reply => ?_
  split
  · exact keeps_pure _
  · exact keeps_throw _
  · exact keeps_throw _
  · exact keeps_throw _

variable {command : Nat → DriveCommand}

theorem meets_submitFor_of {α : Type} {before inv : FuseState → Prop}
    (h : Meets before (submit command) (fun _ => inv) inv)
    (completion : ClientReply → Option (Except Nat α)) :
    Meets before (submitFor command completion) (fun _ => inv) inv := by
  refine meets_bind h fun reply => ?_
  split
  · exact keeps_pure _
  · exact keeps_throw _
  · exact keeps_throw _

namespace Rules
variable {site : Site} {inv : Seen → FuseState → Prop} {Fine Below : WinPath → Prop}
  {known : Seen} {path : WinPath}
variable (parent : Nat) (name : Option (List Char)) (ino : Nat)
section
variable (rules : Rules site inv Fine Below)
include rules

theorem forget {s : FuseState} (hs : inv known s) : inv [] s := rules.subset hs (nil_subset _)

variable {α : Type}

theorem meets_forget {op : Fuse α} (h : Keeps (inv known) op) :
    Meets (inv known) op (fun _ => inv []) (inv []) :=
  meets_mono h (fun _ _ hs => rules.forget hs) fun _ hs => rules.forget hs

theorem meets_forget_failed {op : Fuse α} {after : α → FuseState → Prop}
    (h : Meets (inv known) op after (inv known)) : Meets (inv known) op after (inv []) :=
  meets_mono h (fun _ _ ha => ha) fun _ hs => rules.forget hs

theorem keeps_allocTag : Keeps (inv known) allocTag := meets_modifyGet fun _ hs => rules.tag hs

theorem keeps_submit (h : ∀ tag, ∀ path ∈ pathsOf (command tag), Fine path) :
    Keeps (inv known) (submit command) :=
  meets_bind rules.keeps_allocTag fun tag => meets_modifyGet fun _ hs => rules.send hs (h tag)

theorem keeps_submitCreate (hpath : Fine path) (deviceId access disposition options : Nat) :
    Keeps (inv known) (submitCreate deviceId path access disposition options) :=
  keeps_submitCreate_of (rules.keeps_submit fun _ _ hnamed => mem_singleton.mp hnamed ▸ hpath)

theorem keeps_pathless
    (h : ∀ tag, pathsOf (command tag) = [])
    (completion : ClientReply → Option (Except Nat α)) :
    Keeps (inv known) (submitFor command completion) :=
  meets_submitFor_of (rules.keeps_submit fun tag _ hnamed => absurd (h tag ▸ hnamed) not_mem_nil)
    completion

theorem keeps_submitClose (deviceId fileId : Nat) :
    Keeps (inv known) (submitClose deviceId fileId) :=
  rules.keeps_pathless (fun _ => rfl) _

theorem keeps_submitRename (hpath : Fine path) (deviceId fileId : Nat) (replace : Bool) :
    Keeps (inv known) (submitSetInformation deviceId fileId (.rename path replace)) := by
  have hcommand : ∀ tag,
      ∀ named ∈ pathsOf (.setInformation deviceId fileId (.rename path replace) tag), Fine named :=
    fun _ _ hnamed => mem_singleton.mp hnamed ▸ hpath
  exact meets_submitFor_of (rules.keeps_submit hcommand) _

theorem keeps_submitQueryDir {first : Option WinPath}
    (h : ∀ path ∈ first, Fine path)
    (deviceId fileId : Nat) : Keeps (inv known) (submitQueryDir deviceId fileId first) := by
  have hcommand : ∀ tag, ∀ named ∈ pathsOf (.queryDirectory deviceId fileId first tag), Fine named :=
    fun _ named hnamed => h named (Option.mem_toList.mp hnamed)
  exact meets_submitFor_of (rules.keeps_submit hcommand) _

theorem meets_pathOf :
    Meets (inv known) (pathOf site ino) (fun path s => inv ((ino, path) :: known) s ∧ Fine path)
      (inv known) :=
  meets_mono (DriveOperations.meets_pathOf site ino) (fun _ _ h => rules.path h.1 h.2) fun _ h => h

theorem meets_pathOf_fine :
    Meets (inv known) (pathOf site ino) (fun path s => inv known s ∧ Fine path) (inv known) :=
  meets_mono (rules.meets_pathOf ino) (fun _ _ h => ⟨rules.subset h.1 (subset_cons_self _ _), h.2⟩)
    fun _ h => h

theorem meets_childOf :
    Meets (inv known) (childOf site parent name) (fun path s => inv known s ∧ Below path)
      (inv known) := by
  refine meets_bind (rules.meets_pathOf_fine parent) fun parentPath => meets_of_fact fun hparent => ?_
  refine meets_bind (keeps_orElse _ _) fun name => ?_
  exact meets_mono (meets_orElse _ _) (fun _ _ h => ⟨h.1, rules.child hparent h.2⟩) fun _ h => h

theorem meets_inodeFor (hpath : Fine path) :
    Meets (inv known) (onBridge fun b => b.inodeFor site.deviceId path)
      (fun ino => inv ((ino, path) :: known)) (inv known) :=
  meets_modifyGet fun _ hs => rules.number hs hpath

theorem meets_attrFor (hpath : Fine path) :
    Meets (inv known) (attrFor site.deviceId path) (fun found => inv (seen known path found))
      (inv known) := by
  refine meets_modifyGet fun s hs => ?_
  cases hmeta : s.bridge.metas.lookup (site.deviceId, path) with
  | none =>
    simp only [Bridge.attrFor, hmeta]
    exact hs
  | some cached =>
    simp only [Bridge.attrFor, hmeta]
    exact rules.number hs hpath

omit rules in
theorem meets_orElse_attr (found : Option FileAttr) (e : Errno) :
    Meets (inv (seen known path found)) (orElse found e)
      (fun attr => inv ((attr.ino, path) :: known)) (inv known) := by
  cases found with
  | some attr => exact meets_pure fun _ hs => hs
  | none => exact meets_throw fun _ hs => hs

theorem keeps_cacheEntry (hpath : Fine path) (entry : DirectoryEntry) :
    Keeps (inv known) (updateBridge fun b => b.cacheEntry site.deviceId path entry) := by
  refine keeps_updateBridge fun s hs => ?_
  unfold Bridge.cacheEntry
  dsimp only
  split
  · split
    · next child hjoin =>
      exact rules.metas _ (rules.subset (rules.number hs (rules.fine (rules.child hpath hjoin)))
        (subset_cons_self _ _))
    · exact hs
  · exact hs

theorem updateMeta {s : FuseState} (hs : inv known s) (deviceId : Nat) (path : WinPath)
    (f : CachedMeta → CachedMeta) :
    inv known { s with bridge := s.bridge.updateMeta deviceId path f } := by
  unfold Bridge.updateMeta
  split
  · exact rules.metas _ hs
  · exact hs

theorem keeps_answerInode {number : Nat} (hknown : (number, path) ∈ known) :
    Keeps (inv known) (answerInode site path number) :=
  meets_modify fun _ hs => rules.answer hs hknown

section
variable (hpath : Fine path)
include hpath

theorem keeps_enumerateLoop (fileId turns : Nat) {first : Option WinPath}
    (hfirst : ∀ path ∈ first, Fine path) :
    Keeps (inv known) (enumerateLoop site.deviceId path fileId turns first) := by
  induction turns generalizing first with
  | zero => exact keeps_throw _
  | succ turns ih =>
    refine meets_bind (rules.keeps_submitQueryDir hfirst _ fileId) fun found => ?_
    cases found with
    | none => exact keeps_pure _
    | some entry =>
      refine meets_bind (rules.keeps_cacheEntry hpath entry) fun _ => ?_
      exact meets_bind (ih fun _ h => nomatch h) fun _ => keeps_pure _

theorem keeps_enumerateDirectory (fileId : Nat) :
    Keeps (inv known) (enumerateDirectory site.deviceId path fileId) := by
  refine meets_bind (meets_get fun _ hs => hs) fun s => ?_
  refine rules.keeps_enumerateLoop hpath fileId _ fun pattern hpattern => ?_
  cases hpattern
  exact rules.pattern hpath

theorem keeps_refreshDir : Keeps (inv known) (refreshDir site.deviceId path) := by
  refine meets_bind (rules.keeps_submitCreate hpath _ _ _ _) fun fileId => ?_
  refine meets_bind (keeps_attempt (rules.keeps_enumerateDirectory hpath fileId)) fun result => ?_
  refine meets_bind (keeps_attempt (rules.keeps_submitClose _ _)) fun _ => ?_
  cases result with
  | ok entries => exact keeps_pure _
  | error e => exact keeps_throw e

theorem meets_lookupChild (name : List Char) :
    Meets (inv []) (lookupChild site.deviceId path name)
      (fun attr => inv ((joinWin path name).toList.map fun child => (attr.ino, child))) (inv []) :=
    by
  refine meets_bind (meets_orElse _ _) fun child => meets_of_fact fun hjoin => ?_
  have hchild := rules.fine (rules.child hpath hjoin)
  rw [hjoin]
  refine meets_bind (rules.meets_attrFor hchild) fun found => ?_
  cases found with
  | some attr => exact meets_pure fun _ hs => hs
  | none =>
    refine meets_bind (rules.keeps_refreshDir hpath) fun _ => ?_
    exact meets_bind (rules.meets_attrFor hchild) fun found => meets_orElse_attr found _

end

theorem keeps_lookup : Keeps (inv []) (lookup site parent name) := by
  refine meets_bind (rules.meets_pathOf_fine parent) fun parentPath => meets_of_fact fun hparent => ?_
  refine meets_bind (keeps_orElse _ _) fun name => ?_
  refine meets_bind (rules.meets_lookupChild hparent name) fun attr => ?_
  have hanswer : Meets (inv ((joinWin parentPath name).toList.map fun child => (attr.ino, child)))
      ((joinWin parentPath name).forM fun child => answerInode site child attr.ino)
      (fun _ => inv []) (inv []) := by
    cases joinWin parentPath name with
    | none => exact keeps_pure _
    | some child => exact rules.meets_forget (rules.keeps_answerInode mem_cons_self)
  exact meets_bind hanswer fun _ => keeps_pure _

theorem meets_listChildren
    (hpath : Fine path)
    (entries : List DirectoryEntry) (offset : Nat) (known : Seen) :
    Meets (inv known) (listChildren site path entries offset)
      (fun items => inv (listed items ++ known)) (inv known) := by
  induction entries generalizing offset known with
  | nil => exact meets_pure fun _ hs => hs
  | cons entry entries ih =>
    unfold listChildren
    dsimp only
    split
    · exact ih offset known
    · next child hjoin =>
      refine meets_bind (rules.meets_inodeFor (rules.fine (rules.child hpath hjoin))) fun ino => ?_
      have hrest := meets_mono (ih (offset + 1) ((ino, child) :: known)) (fun _ _ h => h)
        fun _ h => rules.subset h (subset_cons_self _ _)
      refine meets_bind hrest fun items => meets_pure fun s hs => rules.subset hs ?_
      exact perm_middle.symm.subset

theorem meets_parentItem (hpath : Fine path) {ino : Nat} (hino : (ino, path) ∈ known) :
    Meets (inv known) (parentItem site path ino) (fun item => inv (listed [item] ++ known))
      (inv known) := by
  unfold parentItem
  split
  · next hroot =>
    subst hroot
    have hpure : Meets (inv known) (pure ino : Fuse Nat) (fun ino => inv ((ino, rootPath) :: known))
        (inv known) :=
      meets_pure fun _ hs => rules.subset hs (cons_subset.mpr ⟨hino, List.Subset.refl _⟩)
    exact meets_bind hpure fun _ => meets_pure fun _ hs => hs
  · exact meets_bind (rules.meets_inodeFor (rules.parent hpath)) fun _ => meets_pure fun _ hs => hs

theorem meets_replyDirectory (items : List (WinPath × DirItem)) (hknown : listed items ⊆ known) :
    Meets (inv known) (replyDirectory site items) (fun _ => inv []) (inv []) := by
  refine rules.meets_forget (meets_bind (keeps_forM fun item hmem => ?_) fun _ => keeps_pure _)
  exact rules.keeps_answerInode (hknown (mem_map_of_mem hmem))

omit rules in
theorem listed_dotItem_subset (path : WinPath) (ino offset : Nat) :
    listed (dotItem path ino offset) ⊆ [(ino, path)] := by
  unfold dotItem
  split
  · exact List.Subset.refl _
  · exact nil_subset _

theorem keeps_readdir (ino fh offset room : Nat) :
    Keeps (inv []) (readdir site ino fh offset room) := by
  refine meets_bind (rules.meets_pathOf ino) fun path => meets_of_fact fun hpath => ?_
  refine meets_bind (rules.meets_forget_failed (keeps_handleOf fh)) fun handle => ?_
  refine meets_bind (rules.meets_forget_failed (rules.keeps_enumerateDirectory hpath _))
    fun entries => ?_
  refine meets_bind (rules.meets_forget_failed (rules.meets_listChildren hpath entries 3 _))
    fun children => ?_
  dsimp only
  split
  · exact rules.meets_replyDirectory [] (nil_subset _)
  · split
    · have hself : (ino, path) ∈ listed children ++ [(ino, path)] :=
        mem_append_right _ mem_cons_self
      refine meets_bind (rules.meets_forget_failed (rules.meets_parentItem hpath hself))
        fun dotdot => ?_
      refine rules.meets_replyDirectory _ fun entry hmem => ?_
      have hall := ((take_sublist room _).map _).subset hmem
      rw [map_append, map_cons] at hall
      rcases mem_append.mp hall with hdot | hothers
      · have hself := listed_dotItem_subset path ino offset hdot
        exact mem_append_right (listed [dotdot]) (mem_append_right (listed children) hself)
      · rcases mem_cons.mp hothers with rfl | hchild
        · exact mem_cons_self
        · have hlisted : entry ∈ listed children := hchild
          exact mem_append_right (listed [dotdot]) (mem_append_left _ hlisted)
    · refine rules.meets_replyDirectory _ ?_
      have htaken : ((children.drop (offset - 2)).take room).Sublist children :=
        (take_sublist _ _).trans (drop_sublist _ _)
      exact fun entry hmem => mem_append_left _ ((htaken.map _).subset hmem)

theorem meets_replyAttr {attr : FileAttr} (hknown : (attr.ino, path) ∈ known) :
    Meets (inv known) (replyAttr site path attr) (fun _ => inv []) (inv []) :=
  rules.meets_forget (meets_bind (rules.keeps_answerInode hknown) fun _ => keeps_pure _)

theorem keeps_replyCached (hpath : Fine path) : Keeps (inv []) (replyCached site path) := by
  refine meets_bind (rules.meets_attrFor hpath) fun found => ?_
  exact meets_bind (meets_orElse_attr found _) fun _ => rules.meets_replyAttr mem_cons_self

theorem keeps_getattr : Keeps (inv []) (getattr site ino) := by
  refine meets_bind (rules.meets_pathOf_fine ino) fun path => meets_of_fact fun hpath => ?_
  have hrefresh : Keeps (inv []) (do
      let _ ← attempt (refreshDir site.deviceId (parentOf path))
      replyCached site path) :=
    meets_bind (keeps_attempt (rules.keeps_refreshDir (rules.parent hpath))) fun _ =>
      rules.keeps_replyCached hpath
  refine meets_bind (rules.meets_attrFor hpath) fun found => ?_
  cases found with
  | some attr => exact rules.meets_replyAttr mem_cons_self
  | none =>
    dsimp only
    split
    · refine meets_bind (keeps_updateBridge fun _ hs => rules.root hs) fun _ => ?_
      refine meets_bind (rules.meets_attrFor hpath) fun found => ?_
      cases found with
      | some attr => exact rules.meets_replyAttr mem_cons_self
      | none => exact hrefresh
    · exact hrefresh

theorem keeps_opendir : Keeps (inv []) (opendir site ino) :=
  meets_bind (rules.meets_pathOf_fine ino) fun _ => meets_of_fact fun hpath =>
    meets_bind (rules.keeps_submitCreate hpath _ _ _ _) fun fileId =>
      meets_bind (rules.opens fileId) fun _ => keeps_pure _

theorem keeps_openFile (writing truncate : Bool) :
    Keeps (inv []) (openFile site ino writing truncate) :=
  meets_bind (rules.meets_pathOf_fine ino) fun _ => meets_of_fact fun hpath =>
    meets_bind (rules.keeps_submitCreate hpath _ _ _ _) fun fileId =>
      meets_bind (rules.opens fileId) fun _ => keeps_pure _

theorem keeps_release (fh : Nat) : Keeps (inv []) (release fh) := by
  refine meets_bind (keeps_onBridge fun _ hs => rules.closes fh hs) fun found => ?_
  cases found with
  | none => exact keeps_pure _
  | some handle => exact meets_bind (keeps_attempt (rules.keeps_submitClose _ _)) fun _ => keeps_pure _

theorem keeps_read (fh offset size : Nat) : Keeps (inv []) (read fh offset size) :=
  meets_bind (keeps_handleOf fh) fun _ =>
    meets_bind (rules.keeps_pathless (fun _ => rfl) _) fun _ => keeps_pure _

theorem keeps_write (ino fh offset : Nat) (data : Library.ByteString.Bytes) :
    Keeps (inv []) (write ino fh offset data) := by
  refine meets_bind (keeps_handleOf fh) fun handle => ?_
  refine meets_bind (rules.keeps_pathless (fun _ => rfl) _) fun count => ?_
  refine meets_bind (keeps_updateBridge fun s hs => ?_) fun _ => keeps_pure _
  split
  · exact rules.updateMeta hs _ _ _
  · exact hs

theorem keeps_create (mode umask : Nat) (writing : Bool) :
    Keeps (inv []) (create site parent name mode umask writing) := by
  refine meets_bind (rules.meets_childOf parent name) fun path => meets_of_fact fun hpath => ?_
  refine meets_bind (rules.keeps_submitCreate (rules.fine hpath) _ _ _ _) fun fileId => ?_
  refine meets_bind (keeps_updateBridge fun _ hs => rules.metas _ hs) fun _ => ?_
  refine meets_bind (rules.meets_attrFor (rules.fine hpath)) fun found => ?_
  refine meets_bind (meets_orElse_attr found _) fun attr => ?_
  refine meets_bind (rules.meets_forget (rules.keeps_answerInode mem_cons_self)) fun _ => ?_
  exact meets_bind (rules.opens fileId) fun _ => keeps_pure _

theorem keeps_mkdir (mode umask : Nat) : Keeps (inv []) (mkdir site parent name mode umask) := by
  refine meets_bind (rules.meets_childOf parent name) fun path => meets_of_fact fun hpath => ?_
  refine meets_bind (rules.keeps_submitCreate (rules.fine hpath) _ _ _ _) fun fileId => ?_
  refine meets_bind (keeps_attempt (rules.keeps_submitClose _ _)) fun _ => ?_
  refine meets_bind (keeps_updateBridge fun _ hs => rules.metas _ hs) fun _ => ?_
  refine meets_bind (rules.meets_attrFor (rules.fine hpath)) fun found => ?_
  refine meets_bind (meets_orElse_attr found _) fun attr => ?_
  exact meets_bind (rules.meets_forget (rules.keeps_answerInode mem_cons_self)) fun _ => keeps_pure _

theorem keeps_setattrFile (hpath : Fine path) (changes : SetAttr) :
    Keeps (inv []) (setattrFile site path changes) := by
  refine meets_bind (meets_get fun _ hs => hs) fun s => ?_
  split
  · exact keeps_pure _
  · exact meets_bind (rules.keeps_submitCreate hpath _ _ _ _) fun _ => keeps_pure _

theorem keeps_setattrRequests (path : WinPath) (changes : SetAttr) (handle : OpenHandle) :
    Keeps (inv []) (setattrRequests site path changes handle) := by
  have hsize : Keeps (inv []) (setattrSize site path changes handle) := by
    unfold setattrSize
    split
    · exact keeps_pure _
    · refine meets_bind (rules.keeps_pathless (fun _ => rfl) _) fun _ => ?_
      exact keeps_updateBridge fun _ hs => rules.updateMeta hs _ _ _
  have htimes : Keeps (inv []) (setattrTimes changes handle) := by
    unfold setattrTimes
    split
    · exact rules.keeps_pathless (fun _ => rfl) _
    · exact keeps_pure _
  exact meets_bind hsize fun _ => htimes

theorem keeps_setattr (changes : SetAttr) : Keeps (inv []) (setattr site ino changes) := by
  refine meets_bind (rules.meets_pathOf_fine ino) fun path => meets_of_fact fun hpath => ?_
  refine meets_bind (keeps_updateBridge fun s hs => ?_) fun _ => ?_
  · split
    · exact rules.updateMeta hs _ _ _
    · exact hs
  · split
    · refine meets_bind (rules.keeps_setattrFile hpath changes) fun file => ?_
      refine meets_bind (keeps_attempt (rules.keeps_setattrRequests path changes file.1))
        fun result => ?_
      have hclose : Keeps (inv []) (if file.2 then submitClose file.1.deviceId file.1.fileId
          else pure ()) := by
        split
        · exact rules.keeps_submitClose _ _
        · exact keeps_pure _
      refine meets_bind (keeps_attempt hclose) fun _ => ?_
      cases result with
      | error e => exact keeps_throw e
      | ok _ => exact rules.keeps_replyCached hpath
    · exact rules.keeps_replyCached hpath

theorem keeps_deletePath (hpath : Fine path) (isDir : Bool) :
    Keeps (inv []) (deletePath site.deviceId path isDir) := by
  refine meets_bind (keeps_attempt (rules.keeps_submitCreate hpath _ _ _ _)) fun created => ?_
  have hrest : ∀ fileId, Keeps (inv []) (do
      let _ ← attempt (submitSetInformation site.deviceId fileId (.disposition true))
      submitClose site.deviceId fileId
      updateBridge fun b => b.forgetPath site.deviceId path) := fun fileId =>
    meets_bind (keeps_attempt (rules.keeps_pathless (fun _ => rfl) _)) fun _ =>
      meets_bind (rules.keeps_submitClose _ _) fun _ => keeps_updateBridge fun _ hs =>
        rules.forgets hs hpath
  cases created with
  | ok fileId => exact meets_bind (keeps_pure _) hrest
  | error _ => exact meets_bind (rules.keeps_submitCreate hpath _ _ _ _) hrest

theorem keeps_unlink : Keeps (inv []) (unlink site parent name) :=
  meets_bind (rules.meets_childOf parent name) fun _ => meets_of_fact fun hpath =>
    meets_bind (rules.keeps_deletePath (rules.fine hpath) false) fun _ => keeps_pure _

theorem keeps_rmdir : Keeps (inv []) (rmdir site parent name) := by
  refine meets_bind (rules.meets_childOf parent name) fun path => meets_of_fact fun hpath => ?_
  have hempty : Keeps (inv []) (ensureDirEmpty site.deviceId path) := by
    refine meets_bind (rules.keeps_refreshDir (rules.fine hpath)) fun children => ?_
    split
    · exact keeps_pure _
    · exact keeps_throw _
  exact meets_bind hempty fun _ => meets_bind (rules.keeps_deletePath (rules.fine hpath) true)
    fun _ => keeps_pure _

theorem keeps_renamePath {oldPath newPath : WinPath}
    (hold : Below oldPath)
    (hnew : Below newPath)
    (replace : Bool) : Keeps (inv []) (renamePath site oldPath newPath replace) := by
  refine meets_bind (rules.keeps_submitCreate (rules.fine hold) _ _ _ _) fun fileId => ?_
  refine meets_bind (keeps_attempt (rules.keeps_submitRename (rules.fine hnew) _ _ _)) fun result => ?_
  refine meets_bind (keeps_attempt (rules.keeps_submitClose _ _)) fun _ => ?_
  cases result with
  | ok _ => exact rules.moves hold hnew
  | error e => exact keeps_throw e

theorem keeps_exchangePaths {pathA pathB : WinPath}
    (hA : Below pathA)
    (hB : Below pathB)
    (hname : ∀ tag, Below (exchangeName pathA tag)) :
    Keeps (inv []) (exchangePaths site pathA pathB) := by
  refine meets_bind rules.keeps_allocTag fun tag => ?_
  refine meets_bind (rules.keeps_renamePath hA (hname tag) false) fun _ => ?_
  refine meets_bind (keeps_attempt (rules.keeps_renamePath hB hA false)) fun result => ?_
  cases result with
  | ok _ => exact rules.keeps_renamePath (hname tag) hB false
  | error e =>
    exact meets_bind (keeps_attempt (rules.keeps_renamePath (hname tag) hA false)) fun _ =>
      keeps_throw e

theorem keeps_replace {oldPath newPath : WinPath} (hold : Below oldPath) (hnew : Below newPath)
    (noreplace : Bool) :
    Keeps (inv []) (do
      let destExists ← pathExists site.deviceId newPath
      if noreplace ∧ destExists then
        throw .eexist
      else
        renamePath site oldPath newPath destExists
        pure .ok : Fuse FuseReply) := by
  have hexists : Keeps (inv []) (pathExists site.deviceId newPath) := by
    refine meets_bind (rules.meets_attrFor (rules.fine hnew)) fun found => meets_pure fun s hs => ?_
    exact rules.forget hs
  refine meets_bind hexists fun destExists => ?_
  split
  · exact keeps_throw _
  · exact meets_bind (rules.keeps_renamePath hold hnew destExists) fun _ => keeps_pure _

theorem keeps_rename
    (hname : ∀ pathA tag, Below pathA → Below (exchangeName pathA tag))
    (parent : Nat) (name : Option (List Char)) (newparent : Nat) (newname : Option (List Char))
    (flags : RenameFlags) : Keeps (inv []) (rename site parent name newparent newname flags) := by
  refine meets_bind (rules.meets_pathOf_fine parent) fun parentPath => meets_of_fact fun hparent => ?_
  refine meets_bind (rules.meets_pathOf_fine newparent) fun newParentPath =>
    meets_of_fact fun hnewparent => ?_
  refine meets_bind (keeps_orElse _ _) fun name => ?_
  refine meets_bind (keeps_orElse _ _) fun newname => ?_
  refine meets_bind (meets_orElse _ _) fun oldPath => meets_of_fact fun hold => ?_
  refine meets_bind (meets_orElse _ _) fun newPath => meets_of_fact fun hnew => ?_
  have hA := rules.child hparent hold
  have hB := rules.child hnewparent hnew
  split
  · exact keeps_throw _
  · split
    · exact meets_bind (rules.keeps_exchangePaths hA hB fun tag => hname _ tag hA) fun _ => keeps_pure _
    · exact rules.keeps_replace hA hB flags.noreplace

theorem keeps_perform (operation : Operation)
    (hrename : ∀ parent name newparent newname flags,
        operation = .rename parent name newparent newname flags →
          Keeps (inv []) (rename site parent name newparent newname flags)) :
    Keeps (inv []) (operation.perform site) := by
  cases operation with
  | lookup parent name => exact rules.keeps_lookup parent name
  | getattr ino => exact rules.keeps_getattr ino
  | opendir ino => exact rules.keeps_opendir ino
  | readdir ino fh offset room => exact rules.keeps_readdir ino fh offset room
  | releasedir fh => exact rules.keeps_release fh
  | openFile ino writing truncate => exact rules.keeps_openFile ino writing truncate
  | read fh offset size => exact rules.keeps_read fh offset size
  | write ino fh offset data => exact rules.keeps_write ino fh offset data
  | release fh => exact rules.keeps_release fh
  | create parent name mode umask writing => exact rules.keeps_create parent name mode umask writing
  | mkdir parent name mode umask => exact rules.keeps_mkdir parent name mode umask
  | unlink parent name => exact rules.keeps_unlink parent name
  | rmdir parent name => exact rules.keeps_rmdir parent name
  | rename parent name newparent newname flags => exact hrename parent name newparent newname flags rfl
  | setattr ino changes => exact rules.keeps_setattr ino changes

end
end Rules
end Kmsrdp.Guarantees.DriveOperations
