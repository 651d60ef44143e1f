import LearnPg.Workspace.Store

/-! What project operations do to the hosts stored beside the projects. An
operation that edits the envelope it has read carries the hosts along; one that
ends in `writeAll` writes a new envelope without them. -/
namespace LearnPg.Workspace.Hosts

open Data Secrets Store LearnPg.Basis.Sections

/-- Operations on hosts, all others being on projects, clusters or nodes. -/
def editsHosts : Request → Bool
  | .writeHosts _ | .appendHost _ | .updateHost .. | .deleteHost _ => true
  | _ => false

/-- Operations whose last section is `writeAll`. -/
def endsInWriteAll : Request → Bool
  | .upsert _ | .deleteByID _ | .appendCluster .. | .appendNode .. | .writeAll _ => true
  | _ => false

def runAll (s : WorkspaceStore) (ops : List (Request × World)) (file : File) :
    Except String File :=
  ops.foldlM (fun file op => (txn s op.2 op.1).exec file) file

def hostsOf : File → List Host
  | .envelope env => env.hosts.items
  | _ => []

variable {s : WorkspaceStore} {w : World} {file file' : File}

theorem hostsOf_read {env : Envelope} (h : readEnvelopeNoLock s w file = .ok env) :
    env.hosts.items = hostsOf file := by
  unfold readEnvelopeNoLock at h
  obtain ⟨-, -, h⟩ := bind_ok.mp h
  cases file <;> cases h <;> rfl

theorem hostsOf_write {env : Envelope} (h : writeEnvelopeLocked s w env = .ok file') :
    hostsOf file' = env.hosts.items := by
  obtain ⟨projects, -, rfl⟩ := write_ok h
  rfl

theorem hostsOf_split {prepare : File → Except String (Slice Project)}
    (h : (Txn.split prepare (writeAll s w)).exec file = .ok file') : hostsOf file' = [] := by
  obtain ⟨plan, -, hwrite⟩ := bind_ok.mp h
  exact hostsOf_write hwrite

theorem hostsOf_onProjects {edit : Slice Project → Except String (Slice Project)}
    (h : (locked s w (onProjects edit)).exec file = .ok file') :
    hostsOf file' = hostsOf file := by
  obtain ⟨env, next, hread, hedit, hwrite⟩ := locked_ok h
  rw [hostsOf_write hwrite, (onProjects_ok hedit).2, ← hostsOf_read hread]

theorem hostsOf_exec {r : Request} (hproj : editsHosts r = false)
    (h : (txn s w r).exec file = .ok file') :
    hostsOf file' = if endsInWriteAll r then [] else hostsOf file := by
  cases r with
  | upsert | deleteByID | appendCluster | appendNode => exact hostsOf_split h
  | writeAll projects => exact hostsOf_write h
  | updateProjectLocked | deleteProjectLocked | updateClusterLocked | deleteClusterLocked
  | updateNodeLocked | updateNodeStatus | deleteNodeLocked => exact hostsOf_onProjects h
  | writeHosts | appendHost | updateHost | deleteHost => cases hproj

theorem hostsOf_runAll {ops : List (Request × World)}
    (hproj : ∀ op ∈ ops, editsHosts op.1 = false) (h : runAll s ops file = .ok file') :
    hostsOf file' = if ops.any (endsInWriteAll ·.1) then [] else hostsOf file := by
  induction ops generalizing file with
  | nil =>
    cases h
    rfl
  | cons op ops ih =>
    obtain ⟨next, hexec, hrest⟩ := bind_ok.mp h
    obtain ⟨hop, hops⟩ := List.forall_mem_cons.mp hproj
    rw [ih hops hrest, hostsOf_exec hop hexec, List.any_cons]
    cases endsInWriteAll op.1 with
    | true => exact ite_self []
    | false => rfl

theorem exec_envelope {r : Request} (h : (txn s w r).exec file = .ok file') :
    ∃ env, file' = .envelope env := by
  have hwritten : ∃ env, writeEnvelopeLocked s w env = .ok file' := by
    cases r with
    | upsert | deleteByID | appendCluster | appendNode =>
      obtain ⟨plan, -, hwrite⟩ := bind_ok.mp h
      exact ⟨_, hwrite⟩
    | writeAll projects => exact ⟨_, h⟩
    | _ =>
      obtain ⟨env, next, -, -, hwrite⟩ := locked_ok h
      exact ⟨next, hwrite⟩
  obtain ⟨env, hwrite⟩ := hwritten
  obtain ⟨projects, -, rfl⟩ := write_ok hwrite
  exact ⟨_, rfl⟩

theorem runAll_envelope {ops : List (Request × World)} {env : Envelope}
    (h : runAll s ops (.envelope env) = .ok file') : ∃ env', file' = .envelope env' := by
  induction ops generalizing env with
  | nil =>
    cases h
    exact ⟨env, rfl⟩
  | cons op ops ih =>
    obtain ⟨next, hexec, hrest⟩ := bind_ok.mp h
    obtain ⟨env', rfl⟩ := exec_envelope hexec
    exact ih hrest

theorem readHosts_envelope (hread : w.readError = none) (env : Envelope) :
    readHosts s w (.envelope env) = .ok env.hosts := by
  simp only [readHosts, readEnvelopeNoLock, hread]
  rfl

/-- After successful project, cluster and node operations `ReadHosts` returns
the hosts there were exactly when there were none or no operation ended in
`writeAll`. -/
theorem readHosts_kept_iff {env : Envelope} {ops : List (Request × World)}
    (hproj : ∀ op ∈ ops, editsHosts op.1 = false)
    (hrun : runAll s ops (.envelope env) = .ok file') (hread : w.readError = none) :
    (readHosts s w file').map Slice.items = (readHosts s w (.envelope env)).map Slice.items ↔
      env.hosts.items = [] ∨ ∀ op ∈ ops, endsInWriteAll op.1 = false := by
  have hhosts := hostsOf_runAll hproj hrun
  obtain ⟨env', rfl⟩ := runAll_envelope hrun
  rw [readHosts_envelope hread, readHosts_envelope hread]
  change Except.ok env'.hosts.items = Except.ok env.hosts.items ↔ _
  rw [Except.ok.injEq]
  change env'.hosts.items = if _ then [] else env.hosts.items at hhosts
  rw [hhosts]
  split
  case isTrue hany =>
    obtain ⟨op, hop, hends⟩ := List.any_eq_true.mp hany
    have hnone : ¬ ∀ op ∈ ops, endsInWriteAll op.1 = false := fun hall => by
      rw [hall op hop] at hends
      cases hends
    rw [or_iff_left hnone]
    exact eq_comm
  case isFalse hany =>
    refine iff_of_true rfl (.inr fun op hop => ?_)
    exact Bool.eq_false_iff.mpr fun hends => hany (List.any_eq_true.mpr ⟨op, hop, hends⟩)

def shop : Project := ⟨"p1", "shop", .of [], .of []⟩

def shopWithHost : Envelope :=
  ⟨currentWorkspaceSchemaVersion, .of [shop],
    .of [⟨"h1", "db", "10.0.0.1", 22, "root", "", 1⟩]⟩

def renameShop : List (Request × World) :=
  [(.updateProjectLocked "p1" fun p => .ok { p with name := "store" }, quiet)]

theorem readHosts_kept_renameShop :
    ∃ file, runAll plainStore renameShop (.envelope shopWithHost) = .ok file ∧
      ((readHosts plainStore quiet file).map Slice.items =
          (readHosts plainStore quiet (.envelope shopWithHost)).map Slice.items ↔
        shopWithHost.hosts.items = [] ∨ ∀ op ∈ renameShop, endsInWriteAll op.1 = false) := by
  have hproj : ∀ op ∈ renameShop, editsHosts op.1 = false := by decide
  exact ⟨_, rfl, readHosts_kept_iff hproj rfl rfl⟩

/-- Creating a project removes the host. -/
theorem createProject_loses_hosts :
    ¬ ∀ (env : Envelope) (ops : List (Request × World)) (file : File),
      (∀ op ∈ ops, editsHosts op.1 = false) →
      runAll plainStore ops (.envelope env) = .ok file →
      (readHosts plainStore quiet file).map Slice.items =
        (readHosts plainStore quiet (.envelope env)).map Slice.items := by
  intro h
  have hproj : ∀ op ∈ [(Request.upsert { shop with id := "p2" }, quiet)],
      editsHosts op.1 = false := by decide
  have hkept := h shopWithHost _ _ hproj rfl
  revert hkept
  decide

end LearnPg.Workspace.Hosts
