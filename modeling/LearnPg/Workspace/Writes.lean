import LearnPg.Workspace.Places

/-! When the store's operations succeed, and what is in the file when they have. -/
namespace LearnPg.Workspace.Writes

open Data Secrets Store Places LearnPg.Basis.Sections

/-- The source of nonces never fails. -/
def RandomWorks (w : World) : Prop := ∀ pi ci ni, ∃ nonce, w.nonce pi ci ni = .ok nonce

/-- None of a store operation's calls of the file system fails. -/
structure CallsWork (w : World) : Prop where
  read : w.readError = none
  mkdir : w.mkdirError = none
  write : w.writeError = none
  rename : w.renameError = none

/-- A configured key has the 32 bytes that the server insists on at its start. -/
def KeyFits (s : WorkspaceStore) : Prop := ∀ key, s.encKey = some key → key.length = 32

section

variable {s : WorkspaceStore} {w : World} {file file' : File} {projects : Slice Project}

theorem check_ok {err : Option String} {r : Unit} (h : check err = .ok r) : err = none := by
  cases err with
  | none => rfl
  | some err => cases h

theorem read_of_readAll (h : readAll s w file = .ok projects) :
    ∃ env, readEnvelopeNoLock s w file = .ok env ∧ env.projects = projects := by
  obtain ⟨env, henv, h⟩ := bind_ok.mp h
  cases h
  exact ⟨env, henv, rfl⟩

theorem exec_onProjects {edit : Slice Project → Except String (Slice Project)}
    (h : (locked s w (onProjects edit)).exec file = .ok file')
    (hread : readAll s w file = .ok projects) :
    ∃ next, edit projects = .ok next ∧ OnNodes (WrittenAs s) next (storedProjects file') := by
  obtain ⟨env, henv, rfl⟩ := read_of_readAll hread
  obtain ⟨env', next, henv', hedit, hwrite⟩ := locked_ok h
  rw [henv] at henv'
  cases henv'
  exact ⟨next.projects, (onProjects_ok hedit).1, projects_of_write hwrite⟩

theorem exec_onHosts {edit : Slice Host → Except String (Slice Host)}
    (h : (locked s w (onHosts edit)).exec file = .ok file')
    (hread : readAll s w file = .ok projects) :
    OnNodes (WrittenAs s) projects (storedProjects file') := by
  obtain ⟨env, henv, rfl⟩ := read_of_readAll hread
  obtain ⟨env', next, henv', hedit, hwrite⟩ := locked_ok h
  rw [henv] at henv'
  cases henv'
  have hwritten := projects_of_write hwrite
  rw [(onHosts_ok hedit).2] at hwritten
  exact hwritten

theorem exec_split {prepare : File → Except String (Slice Project)}
    (h : (Txn.split prepare (writeAll s w)).exec file = .ok file') :
    ∃ plan, prepare file = .ok plan ∧
      OnNodes (WrittenAs s) (normalizeProjects plan) (storedProjects file') := by
  obtain ⟨plan, hplan, hwrite⟩ := bind_ok.mp h
  exact ⟨plan, hplan, projects_of_write hwrite⟩

theorem mapIdx_total {α β ε : Type} {f : Nat → α → Except ε β}
    (hf : ∀ i x, ∃ y, f i x = .ok y) (xs : Slice α) : ∃ ys, xs.mapIdx f = .ok ys := by
  cases xs with
  | nil => exact ⟨.nil, rfl⟩
  | of xs =>
    have hlist (i : Nat) : ∃ ys, mapIdx f i xs = .ok ys := by
      induction xs generalizing i with
      | nil => exact ⟨[], rfl⟩
      | cons x xs ih =>
        obtain ⟨y, hy⟩ := hf i x
        obtain ⟨ys, hys⟩ := ih (i + 1)
        refine ⟨y :: ys, ?_⟩
        unfold mapIdx
        rw [hy, hys]
        rfl
    obtain ⟨ys, hys⟩ := hlist 0
    refine ⟨.of ys, ?_⟩
    change Slice.of <$> mapIdx f 0 xs = _
    rw [hys]
    rfl

theorem encryptNode_total {key : List UInt8} (hkey : key.length = 32) (crypto : Crypto)
    (nonce : Nonce) (n : Node) : ∃ n', encryptNode crypto key (.ok nonce) n = .ok n' := by
  have hcipher : newCipher key = .ok () := if_pos (.inr (.inr hkey))
  unfold encryptNode
  split
  · exact ⟨n, rfl⟩
  · unfold encryptPassword
    dsimp only
    rw [hcipher]
    exact ⟨_, rfl⟩

theorem encrypt_total (hkey : KeyFits s) (hw : RandomWorks w) (projects : Slice Project) :
    ∃ written, encryptNodePasswords s.crypto s.encKey w.nonce projects = .ok written := by
  unfold encryptNodePasswords
  cases hs : s.encKey with
  | none => exact ⟨projects, rfl⟩
  | some key =>
    apply mapIdx_total
    intro pi p
    have hclusters : ∃ clusters, p.clusters.mapIdx (fun ci c => do
        let nodes ← c.nodes.mapIdx fun ni n => encryptNode s.crypto key (w.nonce pi ci ni) n
        return { c with nodes }) = .ok clusters := by
      apply mapIdx_total
      intro ci c
      have hnodes : ∃ nodes, c.nodes.mapIdx
          (fun ni n => encryptNode s.crypto key (w.nonce pi ci ni) n) = .ok nodes := by
        apply mapIdx_total
        intro ni n
        obtain ⟨nonce, hnonce⟩ := hw pi ci ni
        rw [hnonce]
        exact encryptNode_total (hkey key hs) s.crypto nonce n
      obtain ⟨nodes, hnodes⟩ := hnodes
      exact ⟨_, by rw [hnodes]; rfl⟩
    obtain ⟨clusters, hclusters⟩ := hclusters
    exact ⟨_, by rw [hclusters]; rfl⟩

theorem readNode_same (n : Node) :
    ∃ password, readNode s n = { n with password } := by
  unfold readNode
  cases s.encKey with
  | none => exact ⟨n.password, rfl⟩
  | some key =>
    dsimp only
    unfold decryptNode
    split
    · split
      next password _ => exact ⟨password, rfl⟩
      next => exact ⟨n.password, rfl⟩
    · exact ⟨n.password, rfl⟩

theorem readNode_id (n : Node) : (readNode s n).id = n.id := by
  obtain ⟨password, h⟩ : ∃ password, readNode s n = { n with password } := readNode_same n
  rw [h]

theorem writtenAs_same {n n' : Node} (h : WrittenAs s n n') :
    ∃ password, n' = { n with password } := by
  unfold WrittenAs at h
  split at h
  · exact ⟨n.password, h⟩
  next key _ =>
    obtain ⟨nonce, h⟩ := h
    unfold encryptNode at h
    split at h
    · cases h
      exact ⟨n.password, rfl⟩
    · obtain ⟨ct, -, h⟩ := bind_ok.mp h
      cases h
      exact ⟨ct, rfl⟩

theorem exec_read {edit : Slice Project → Except String (Slice Project)}
    (h : (locked s w (onProjects edit)).exec file = .ok file') :
    CallsWork w ∧ ∃ projects, readAll s w file = .ok projects := by
  obtain ⟨env, next, henv, -, hwrite⟩ := locked_ok h
  have hwork : CallsWork w := by
    unfold readEnvelopeNoLock at henv
    unfold writeEnvelopeLocked at hwrite
    obtain ⟨_, hread, -⟩ := bind_ok.mp henv
    obtain ⟨_, hmkdir, hwrite⟩ := bind_ok.mp hwrite
    obtain ⟨_, -, hwrite⟩ := bind_ok.mp hwrite
    obtain ⟨_, hwrite', hwrite⟩ := bind_ok.mp hwrite
    obtain ⟨_, hrename, -⟩ := bind_ok.mp hwrite
    exact ⟨check_ok hread, check_ok hmkdir, check_ok hwrite', check_ok hrename⟩
  exact ⟨hwork, env.projects, bind_ok.mpr ⟨env, henv, rfl⟩⟩

theorem exec_total (hkey : KeyFits s) (hrandom : RandomWorks w) (hwork : CallsWork w)
    {edit : Slice Project → Except String (Slice Project)} {next : Slice Project}
    (hread : readAll s w file = .ok projects) (hedit : edit projects = .ok next) :
    ∃ file', (locked s w (onProjects edit)).exec file = .ok file' := by
  obtain ⟨env, henv, rfl⟩ := read_of_readAll hread
  obtain ⟨written, hwritten⟩ := encrypt_total hkey hrandom next
  refine ⟨.envelope { env with projects := written }, bind_ok.mpr ⟨env, henv, ?_⟩⟩
  refine bind_ok.mpr ⟨{ env with projects := next }, bind_ok.mpr ⟨next, hedit, rfl⟩, ?_⟩
  unfold writeEnvelopeLocked
  rw [hwork.mkdir, hwork.write, hwork.rename]
  exact bind_ok.mpr ⟨(), rfl, bind_ok.mpr ⟨written, hwritten, rfl⟩⟩

end

end LearnPg.Workspace.Writes
