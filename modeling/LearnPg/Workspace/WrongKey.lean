import LearnPg.Workspace.Edits
import LearnPg.Workspace.Hosts
import LearnPg.Workspace.Writes

/-! A store without the right key reads a ciphertext as it is stored and writes it
back unchanged, whatever it does to other nodes. -/
namespace LearnPg.Workspace.WrongKey

open Data Secrets Store Places Writes Edits Hosts LearnPg.Basis.Sections

/-- `follow` along operations that run one after another. -/
def followAll (s : WorkspaceStore) : List (Request × World) → File → Place → Option Place
  | [], _, place => some place
  | op :: ops, file, place =>
    match readAll s op.2 file, (txn s op.2 op.1).exec file with
    | .ok projects, .ok file' => (follow projects place op.1).bind (followAll s ops file')
    | _, _ => none

section

variable {s : WorkspaceStore} {w : World} {file file' : File} {place place' : Place}
  {projects next : Slice Project} {id : String}

theorem upsertItem_getElem? {p q : Project} {ps : List Project} {i : Nat} (hq : ps[i]? = some q)
    (hother : ps.findIdx? (·.id = p.id) ≠ some i) : (upsertItem p ps)[i]? = some q := by
  induction ps generalizing i with
  | nil => cases hq
  | cons a ps ih =>
    unfold upsertItem
    rw [List.findIdx?_cons] at hother
    split
    next ha =>
      rw [if_pos (decide_eq_true ha)] at hother
      cases i with
      | zero => exact absurd rfl hother
      | succ i => exact hq
    next ha =>
      rw [if_neg (by simpa using ha)] at hother
      cases i with
      | zero => exact hq
      | succ i =>
        apply ih hq
        intro heq
        rw [heq] at hother
        exact hother rfl

theorem upsert_kept {p : Project}
    (hfollow : within Project.id p.id projects.items place.project place (fun _ => none) =
      some place') :
    KeepsPassword (nodeAt projects place)
      (nodeAt (.of (upsertItem p projects.items)) place') := by
  unfold within at hfollow
  split at hfollow
  next hi =>
    obtain ⟨hlt, -⟩ := List.findIdx?_eq_some_iff_getElem.mp hi
    rw [List.getElem?_eq_getElem hlt] at hfollow
    cases hfollow
  next hi =>
    cases hfollow
    intro pw hpw
    obtain ⟨n, hn, hpw⟩ := Option.map_eq_some_iff.mp hpw
    obtain ⟨q, hq, hn⟩ := Option.bind_eq_some_iff.mp hn
    unfold nodeAt
    rw [items_of, upsertItem_getElem? hq hi, Option.bind_some, hn, Option.map_some, hpw]

theorem getElem?_filter {α : Type} {test : α → Bool} {xs : List α} {x : α} {i : Nat}
    (hx : xs[i]? = some x) (htest : test x = true) :
    (xs.filter test)[((xs.take i).filter test).length]? = some x := by
  obtain ⟨hi, rfl⟩ := List.getElem?_eq_some_iff.mp hx
  have hsplit : xs.filter test =
      (xs.take i).filter test ++ xs[i] :: (xs.drop (i + 1)).filter test := by
    conv_lhs => rw [← List.take_append_drop i xs, List.drop_eq_getElem_cons hi]
    rw [List.filter_append, List.filter_cons_of_pos htest]
  rw [hsplit, List.getElem?_append_right (Nat.le_refl _), Nat.sub_self, List.getElem?_cons_zero]

theorem filter_kept
    (hfollow : (projects.items[place.project]?.bind fun p =>
      if p.id = id then none
      else
        let before := (projects.items.take place.project).filter (·.id ≠ id)
        some { place with project := before.length }) = some place') :
    KeepsPassword (nodeAt projects place)
      (nodeAt (.of (projects.items.filter (·.id ≠ id))) place') := by
  obtain ⟨p, hp, hfollow⟩ := Option.bind_eq_some_iff.mp hfollow
  split at hfollow
  · cases hfollow
  next hid =>
    cases hfollow
    intro pw hpw
    unfold nodeAt at hpw ⊢
    rw [hp] at hpw
    rw [items_of, getElem?_filter hp (decide_eq_true hid)]
    exact hpw

theorem append_getElem? {α : Type} {xs : Slice α} {x y : α} {i : Nat}
    (hy : xs.items[i]? = some y) : (xs.append x).items[i]? = some y := by
  obtain ⟨hi, -⟩ := List.getElem?_eq_some_iff.mp hy
  unfold Slice.append
  rw [items_of, List.getElem?_append_left hi, hy]

theorem appendCluster_kept {projectID : String} {cluster : Cluster}
    (h : editProject projectID (patched fun p =>
      if cluster.id = "" then .error "cluster id is required"
      else .ok { p with
        clusters := p.clusters.append { cluster with nodes := .of cluster.nodes.items } })
      projects = .ok next) :
    KeepsPassword (nodeAt projects place) (nodeAt next place) := by
  apply editProject_kept h (within_self Project.id projectID _ _ place)
  intro p q hq _
  refine ⟨rfl, fun pw hpw => ?_⟩
  split at hq
  · cases hq
  cases hq
  obtain ⟨n, hn, hpw⟩ := Option.map_eq_some_iff.mp hpw
  obtain ⟨c, hc, hn⟩ := Option.bind_eq_some_iff.mp hn
  unfold projectNode
  rw [append_getElem? hc, Option.bind_some, hn, Option.map_some, hpw]

theorem appendNode_kept {projectID clusterID : String} {node : Node}
    (h : editProject projectID (patched (editCluster clusterID (patched fun c =>
      if node.id = "" then .error "node id is required"
      else .ok { c with nodes := c.nodes.append node }))) projects = .ok next) :
    KeepsPassword (nodeAt projects place) (nodeAt next place) := by
  apply editProject_kept h (within_self Project.id projectID _ _ place)
  intro p q hq _
  apply editCluster_kept hq (within_self Cluster.id clusterID _ _ place)
  intro c d hd _
  refine ⟨rfl, rfl, fun pw hpw => ?_⟩
  split at hd
  · cases hd
  cases hd
  obtain ⟨n, hn, hpw⟩ := Option.map_eq_some_iff.mp hpw
  unfold clusterNode
  rw [append_getElem? hn, Option.map_some, hpw]

theorem updateNodeStatus_kept {nodeID status lastError : String}
    (h : updateNodeStatus nodeID status lastError projects = .ok next) :
    KeepsPassword (nodeAt projects place) (nodeAt next place) := by
  obtain ⟨first, n, hn, -, -, hnext⟩ := updateNodeStatus_ok h
  intro pw hpw
  rw [hnext]
  split
  next heq =>
    rw [heq, hn] at hpw
    exact hpw
  next => exact hpw

/-- What a successful operation writes from what it read, at the place to which a
node is followed. -/
theorem follow_exec {r : Request} (h : (txn s w r).exec file = .ok file')
    (hread : readAll s w file = .ok projects) (hfollow : follow projects place r = some place') :
    ∃ next, KeepsPassword (nodeAt projects place) (nodeAt next place') ∧
      OnNodes (WrittenAs s) next (storedProjects file') := by
  cases r with
  | upsert p =>
    obtain ⟨plan, hplan, hwritten⟩ := exec_split h
    refine ⟨_, ?_, hwritten⟩
    unfold upsert at hplan
    rw [hread] at hplan
    change (if _ then _ else _) = _ at hplan
    split at hplan
    · cases hplan
    cases hplan
    rw [nodeAt_normalize]
    exact upsert_kept hfollow
  | deleteByID id =>
    obtain ⟨plan, hplan, hwritten⟩ := exec_split h
    refine ⟨_, ?_, hwritten⟩
    unfold deleteByID at hplan
    rw [hread] at hplan
    split at hplan
    · cases hplan
    cases hplan
    rw [nodeAt_normalize]
    exact filter_kept hfollow
  | appendCluster projectID cluster =>
    obtain ⟨plan, hplan, hwritten⟩ := exec_split h
    refine ⟨_, ?_, hwritten⟩
    unfold appendCluster at hplan
    rw [hread] at hplan
    split at hplan
    · cases hplan
    cases hfollow
    rw [nodeAt_normalize]
    exact appendCluster_kept hplan
  | appendNode projectID clusterID node =>
    obtain ⟨plan, hplan, hwritten⟩ := exec_split h
    refine ⟨_, ?_, hwritten⟩
    unfold appendNode at hplan
    rw [hread] at hplan
    split at hplan
    · cases hplan
    cases hfollow
    rw [nodeAt_normalize]
    exact appendNode_kept hplan
  | writeAll projects => cases hfollow
  | updateProjectLocked id patch =>
    obtain ⟨next, hedit, hwritten⟩ := exec_onProjects h hread
    refine ⟨next, editProject_kept hedit hfollow ?_, hwritten⟩
    intro p q hq hkept
    rw [hq] at hkept
    obtain ⟨rfl, hkept⟩ := kept_keeps hkept
    exact ⟨rfl, hkept⟩
  | deleteProjectLocked id =>
    obtain ⟨next, hedit, hwritten⟩ := exec_onProjects h hread
    refine ⟨next, ?_, hwritten⟩
    unfold deleteProject at hedit
    dsimp only at hedit
    split at hedit
    · cases hedit
    cases hedit
    exact filter_kept hfollow
  | updateClusterLocked projectID clusterID patch =>
    obtain ⟨next, hedit, hwritten⟩ := exec_onProjects h hread
    refine ⟨next, editProject_kept hedit hfollow fun p q hq hp => ?_, hwritten⟩
    apply editCluster_kept hq hp
    intro c d hd hkept
    rw [hd] at hkept
    obtain ⟨rfl, hkept⟩ := kept_keeps hkept
    exact ⟨rfl, rfl, hkept⟩
  | deleteClusterLocked projectID clusterID =>
    obtain ⟨next, hedit, hwritten⟩ := exec_onProjects h hread
    exact ⟨next, editProject_kept hedit hfollow fun p q => deleteCluster_kept, hwritten⟩
  | updateNodeLocked projectID clusterID nodeID patch =>
    obtain ⟨next, hedit, hwritten⟩ := exec_onProjects h hread
    refine ⟨next, editProject_kept hedit hfollow fun p q hq hp => ?_, hwritten⟩
    exact editCluster_kept hq hp fun c d => editNode_kept
  | updateNodeStatus nodeID status lastError =>
    obtain ⟨next, hedit, hwritten⟩ := exec_onProjects h hread
    cases hfollow
    exact ⟨next, updateNodeStatus_kept hedit, hwritten⟩
  | deleteNodeLocked projectID clusterID nodeID =>
    obtain ⟨next, hedit, hwritten⟩ := exec_onProjects h hread
    refine ⟨next, editProject_kept hedit hfollow fun p q hq hp => ?_, hwritten⟩
    exact editCluster_kept hq hp fun c d => deleteNode_kept
  | writeHosts | appendHost | updateHost | deleteHost =>
    cases hfollow
    exact ⟨projects, fun _ hpw => hpw, exec_onHosts h hread⟩

/-- A ciphertext that the store cannot open. -/
def Unreadable (s : WorkspaceStore) (stored : String) : Prop :=
  isEncrypted stored = true ∧ ∀ key, s.encKey = some key →
    ∃ err, decryptPassword s.crypto stored (some key) = .error err

theorem Unreadable.readNode {n : Node} (h : Unreadable s n.password) : readNode s n = n := by
  unfold Places.readNode
  cases hkey : s.encKey with
  | none => rfl
  | some key =>
    obtain ⟨err, herr⟩ := h.2 key hkey
    dsimp only
    unfold decryptNode
    rw [if_pos h.1, herr]

theorem writtenAs_encrypted {n n' : Node} (hwritten : WrittenAs s n n')
    (h : isEncrypted n.password = true) : n' = n := by
  unfold WrittenAs at hwritten
  cases hkey : s.encKey with
  | none =>
    rw [hkey] at hwritten
    exact hwritten
  | some key =>
    rw [hkey] at hwritten
    obtain ⟨nonce, hn⟩ := hwritten
    unfold encryptNode at hn
    rw [if_pos (.inr h)] at hn
    cases hn
    rfl

theorem exec_keeps {ct : String} {r : Request} (hct : Unreadable s ct)
    (h : (txn s w r).exec file = .ok file') (hread : readAll s w file = .ok projects)
    (hfollow : follow projects place r = some place')
    (hstored : passwordAt (storedProjects file) place = some ct) :
    passwordAt (storedProjects file') place' = some ct := by
  obtain ⟨next, hkeeps, hwritten⟩ := follow_exec h hread hfollow
  obtain ⟨env, henv, rfl⟩ := read_of_readAll hread
  obtain ⟨n, hn, rfl⟩ := Option.map_eq_some_iff.mp hstored
  have hbefore : (nodeAt env.projects place).map (·.password) = some n.password := by
    rw [nodeAt_read henv, hn, Option.map_some, Option.map_some, hct.readNode]
  obtain ⟨m, hm, hpw⟩ := Option.map_eq_some_iff.mp (hkeeps _ hbefore)
  obtain ⟨m', hm', hrel⟩ := hwritten.nodeAt hm
  have hsame : m' = m := writtenAs_encrypted hrel (by rw [hpw]; exact hct.1)
  unfold passwordAt
  rw [hm', Option.map_some, hsame, hpw]

theorem runAll_keeps {ct : String} {ops : List (Request × World)} (hct : Unreadable s ct)
    (h : runAll s ops file = .ok file') (hfollow : followAll s ops file place = some place')
    (hstored : passwordAt (storedProjects file) place = some ct) :
    passwordAt (storedProjects file') place' = some ct := by
  induction ops generalizing file place with
  | nil =>
    cases h
    cases hfollow
    exact hstored
  | cons op ops ih =>
    obtain ⟨next, hexec, hrest⟩ := bind_ok.mp h
    change (txn s op.2 op.1).exec file = .ok next at hexec
    unfold followAll at hfollow
    rw [hexec] at hfollow
    cases hread : readAll s op.2 file with
    | error err =>
      rw [hread] at hfollow
      cases hfollow
    | ok projects =>
      rw [hread] at hfollow
      obtain ⟨middle, hop, hops⟩ := Option.bind_eq_some_iff.mp hfollow
      exact ih hrest hops (exec_keeps hct hexec hread hop hstored)

/-- A wrong key destroys nothing: after successful operations by a store with no
key or another one, the ciphertext of every node that none of them replaced or
deleted is as it was, and the right key still yields its password. -/
theorem ciphertext_kept {key : List UInt8} {nonce : Nonce} {plain ct : String}
    {ops : List (Request × World)}
    (hdecode : ∀ bytes, s.crypto.decodeString (s.crypto.encodeToString bytes) = .ok bytes)
    (hopen : ∀ (nonce : Nonce) plain,
      s.crypto.gcmOpen key nonce.val (s.crypto.gcmSeal key nonce.val plain) = .ok plain)
    (hwrong : ∀ key' ≠ key, ∀ (nonce : Nonce) plain,
      ∃ err, s.crypto.gcmOpen key' nonce.val (s.crypto.gcmSeal key nonce.val plain) = .error err)
    (hkey : s.encKey ≠ some key)
    (hct : encryptPassword s.crypto (.ok nonce) plain (some key) = .ok ct)
    (hstored : passwordAt (storedProjects file) place = some ct)
    (hrun : runAll s ops file = .ok file')
    (hfollow : followAll s ops file place = some place') :
    passwordAt (storedProjects file') place' = some ct ∧
      ∀ w : World, w.readError = none → ∃ projects,
        readAll ⟨s.crypto, some key⟩ w file' = .ok projects ∧
          passwordAt projects place' = some plain := by
  obtain ⟨hcipher, rfl⟩ := encryptPassword_ok hct
  have hunreadable : Unreadable s (ciphertext s.crypto key nonce plain) := by
    refine ⟨isEncrypted_ciphertext .., fun key' hkey' => ?_⟩
    have hother : key' ≠ key := by
      rintro rfl
      exact hkey hkey'
    obtain ⟨err, herr⟩ := hwrong key' hother nonce plain
    rw [decryptPassword_ciphertext hdecode, herr]
    cases newCipher key' with
    | error cause => exact ⟨cause, rfl⟩
    | ok => exact ⟨err, rfl⟩
  have hkept := runAll_keeps hunreadable hrun hfollow hstored
  refine ⟨hkept, fun w hread => ?_⟩
  obtain ⟨n, hn, hpw⟩ := Option.map_eq_some_iff.mp hkept
  obtain ⟨env, henv⟩ := read_of_nodeAt ⟨s.crypto, some key⟩ hread hn
  refine ⟨env.projects, bind_ok.mpr ⟨env, henv, rfl⟩, ?_⟩
  unfold passwordAt
  rw [nodeAt_read henv, hn, Option.map_some, Option.map_some]
  change some (decryptNode s.crypto key n).password = _
  rw [decryptNode_ciphertext hdecode (hopen nonce plain) hcipher hpw]

end

def sealedNode (id : String) : Node :=
  ⟨id, id, "10.0.0.1", 5432, "postgres", "enc:v1:AAAAAAAAAAAAAAAAvcIjTygUvyIgT86cwes5OhYufTZXsQ==",
    "postgres", "physical", "standby", "", "", none, none, "", "", "", ""⟩

def twoSealed : File :=
  .envelope ⟨currentWorkspaceSchemaVersion,
    .of [⟨"p1", "shop", .of [⟨"c1", "main", "streaming", 30, "", "", none,
      .of [sealedNode "n1", sealedNode "n2"]⟩], .of []⟩], .nil⟩

def deleteFirst : List (Request × World) := [(.deleteNodeLocked "p1" "c1" "n1", quiet)]

def otherKeyStore : WorkspaceStore := ⟨zeroCrypto, some (List.replicate 32 1)⟩

theorem ciphertext_kept_deleteFirst :
    ∃ file', runAll otherKeyStore deleteFirst twoSealed = .ok file' ∧
      passwordAt (storedProjects file') ⟨0, 0, 0⟩ = some (sealedNode "n2").password ∧
      ∀ w : World, w.readError = none → ∃ projects,
        readAll ⟨otherKeyStore.crypto, some zeroKey⟩ w file' = .ok projects ∧
          passwordAt projects ⟨0, 0, 0⟩ = some "secret" := by
  have hkey : otherKeyStore.encKey ≠ some zeroKey := by decide
  have hct : encryptPassword zeroCrypto (.ok zeroNonce) "secret" (some zeroKey) =
      .ok (sealedNode "n2").password := by decide +kernel
  have hstored : passwordAt (storedProjects twoSealed) ⟨0, 0, 1⟩ =
      some (sealedNode "n2").password := rfl
  obtain ⟨file', hrun⟩ : ∃ file', runAll otherKeyStore deleteFirst twoSealed = .ok file' :=
    ⟨_, rfl⟩
  have hfollow : followAll otherKeyStore deleteFirst twoSealed ⟨0, 0, 1⟩ =
      some ⟨0, 0, 0⟩ := rfl
  exact ⟨file', hrun, ciphertext_kept zeroCrypto_decode (fun nonce => zeroCrypto_open nonce.val)
    (fun key' hother nonce plain => ⟨_, zeroCrypto_wrong hother nonce.val _⟩)
    hkey hct hstored hrun hfollow⟩

end LearnPg.Workspace.WrongKey
