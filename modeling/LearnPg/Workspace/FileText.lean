import LearnPg.Basis.JsonTypes
import LearnPg.Basis.Utf8
import LearnPg.Workspace.AtRest
import LearnPg.Workspace.Locality

/-! The workspace file as bytes: how a read tells the formats apart, and what a write puts in
their place. -/
namespace LearnPg.Workspace.FileText
open LearnPg.Basis LearnPg.Basis.Json LearnPg.Basis.JsonTypes LearnPg.Basis.Utf8 Data Store
open LearnPg.Basis.Blanks (isSpace)

section Tags

def instanceMetaFields : Fields :=
  .cons "service" true .string <| .cons "dataDir" true .string <| .cons "version" true .string .nil

def sshHintFields : Fields :=
  .cons "host" true .string <| .cons "port" true .int <| .cons "user" true .string .nil

def nodeFields : Fields :=
  .cons "id" false .string <| .cons "name" false .string <| .cons "host" false .string <|
  .cons "port" false .int <| .cons "user" false .string <| .cons "password" false .string <|
  .cons "database" false .string <| .cons "cluster_type" false .string <|
  .cons "role" false .string <| .cons "source" true .string <| .cons "dsn" true .string <|
  .cons "instanceMeta" true (.ptr instanceMetaFields) <|
  .cons "sshHint" true (.ptr sshHintFields) <| .cons "connectionStatus" true .string <|
  .cons "lastError" true .string <| .cons "hostId" true .string <|
  .cons "containerId" true .string .nil

def runtimeFields : Fields :=
  .cons "type" false .string <| .cons "pgVersion" true .string .nil

def clusterFields : Fields :=
  .cons "id" false .string <| .cons "name" false .string <|
  .cons "replicationType" false .string <| .cons "alertThresholdSec" true .int <|
  .cons "provisionMode" true .string <| .cons "provisionTaskId" true .string <|
  .cons "runtime" true (.ptr runtimeFields) <|
  .cons "nodes" false (.slice (.struct nodeFields)) .nil

def componentFields : Fields :=
  .cons "id" false .string <| .cons "name" false .string <|
  .cons "componentType" false .string <| .cons "linkedClusterIds" false (.slice .string) .nil

def hostFields : Fields :=
  .cons "id" false .string <| .cons "name" false .string <| .cons "host" false .string <|
  .cons "port" false .int <| .cons "sshUser" false .string <| .cons "sshKey" true .string <|
  .cons "createdAt" false .int .nil

def projectFields : Fields :=
  .cons "id" false .string <| .cons "name" false .string <|
  .cons "clusters" false (.slice (.struct clusterFields)) <|
  .cons "components" false (.slice (.struct componentFields)) .nil

def projectsType : Ty := .slice (.struct projectFields)

def envelopeFields : Fields :=
  .cons "schemaVersion" false .int <| .cons "projects" false projectsType <|
  .cons "hosts" false (.slice (.struct hostFields)) .nil

def envelopeType : Ty := .struct envelopeFields

end Tags

section Values

variable {α β : Type}

def toSlice (f : α → β) : Option (List α) → Slice β
  | none => .nil
  | some items => .of (items.map f)

def ofSlice (f : α → β) : Slice α → Option (List β)
  | .nil => none
  | .of items => some (items.map f)

def toInstanceMeta : instanceMetaFields.Rep → InstanceMeta
  | (service, dataDir, version, _) => ⟨service, dataDir, version⟩

def ofInstanceMeta (m : InstanceMeta) : instanceMetaFields.Rep := (m.service, m.dataDir, m.version, ())

def toSSHHint : sshHintFields.Rep → SSHHint
  | (host, port, user, _) => ⟨host, port, user⟩

def ofSSHHint (h : SSHHint) : sshHintFields.Rep := (h.host, h.port, h.user, ())

def toNode : nodeFields.Rep → Node
  | (id, name, host, port, user, password, database, clusterType, role, source, dsn, instanceMeta,
      sshHint, connectionStatus, lastError, hostId, containerID, _) =>
    ⟨id, name, host, port, user, password, database, clusterType, role, source, dsn,
      Option.map toInstanceMeta instanceMeta, Option.map toSSHHint sshHint, connectionStatus,
      lastError, hostId, containerID⟩

def ofNode (n : Node) : nodeFields.Rep :=
  (n.id, n.name, n.host, n.port, n.user, n.password, n.database, n.clusterType, n.role, n.source,
    n.dsn, n.instanceMeta.map ofInstanceMeta, n.sshHint.map ofSSHHint, n.connectionStatus,
    n.lastError, n.hostId, n.containerID, ())

def toRuntime : runtimeFields.Rep → Runtime
  | (type, pgVersion, _) => ⟨type, pgVersion⟩

def ofRuntime (r : Runtime) : runtimeFields.Rep := (r.type, r.pgVersion, ())

def toCluster : clusterFields.Rep → Cluster
  | (id, name, replicationType, alertThresholdSec, provisionMode, provisionTaskID, runtime, nodes,
      _) =>
    ⟨id, name, replicationType, alertThresholdSec, provisionMode, provisionTaskID,
      Option.map toRuntime runtime, toSlice toNode nodes⟩

def ofCluster (c : Cluster) : clusterFields.Rep :=
  (c.id, c.name, c.replicationType, c.alertThresholdSec, c.provisionMode, c.provisionTaskID,
    c.runtime.map ofRuntime, ofSlice ofNode c.nodes, ())

def toComponent : componentFields.Rep → Component
  | (id, name, componentType, linkedClusterIDs, _) =>
    ⟨id, name, componentType, toSlice (fun s => s) linkedClusterIDs⟩

def ofComponent (m : Component) : componentFields.Rep :=
  (m.id, m.name, m.componentType, ofSlice (fun s => s) m.linkedClusterIDs, ())

def toHost : hostFields.Rep → Host
  | (id, name, host, port, sshUser, sshKey, createdAt, _) =>
    ⟨id, name, host, port, sshUser, sshKey, createdAt⟩

def ofHost (h : Host) : hostFields.Rep :=
  (h.id, h.name, h.host, h.port, h.sshUser, h.sshKey, h.createdAt, ())

def toProject : projectFields.Rep → Project
  | (id, name, clusters, components, _) =>
    ⟨id, name, toSlice toCluster clusters, toSlice toComponent components⟩

def ofProject (p : Project) : projectFields.Rep :=
  (p.id, p.name, ofSlice ofCluster p.clusters, ofSlice ofComponent p.components, ())

def toEnvelope : envelopeFields.Rep → Envelope
  | (schemaVersion, projects, hosts, _) =>
    ⟨schemaVersion, toSlice toProject projects, toSlice toHost hosts⟩

def ofEnvelope (env : Envelope) : envelopeFields.Rep :=
  (env.schemaVersion, ofSlice ofProject env.projects, ofSlice ofHost env.hosts, ())

end Values

/-- What a read makes of the file's bytes. A top level that decodes as a list is the old format.
`describe` is the text of the decoder's error. -/
def fileOf (describe : List UInt8 → String) : Option (List UInt8) → File
  | none => .missing
  | some bytes =>
    let text := decodeRunes bytes
    if text.all isSpace then .blank
    else match unmarshal projectsType text with
    | some legacy => .legacy (toSlice toProject legacy)
    | none => match unmarshal envelopeType text with
      | some env => .envelope (toEnvelope env)
      | none => .malformed (describe bytes)

example : (unmarshal projectsType "[\x7b\"ID\":\"p1\",\"clusters\":[\x7b\x7d]\x7d]".toList).map
    (toSlice toProject) = some (.of [⟨"p1", "", .of [⟨"", "", "", 0, "", "", none, .nil⟩], .nil⟩]) := by
  decide +kernel

section

variable (describe : List UInt8 → String) (s : WorkspaceStore) (w : World)

def readContent (content : Option (List UInt8)) : Except String Envelope :=
  readEnvelopeNoLock s w (fileOf describe content)

/-- The bytes that `json.MarshalIndent` makes of an envelope. -/
def contentOf (env : Envelope) : List UInt8 := encodeRunes (marshal envelopeType (ofEnvelope env))

/-- `writeEnvelopeLocked`, with what it puts in the file. -/
def writeContent (env : Envelope) : Except String (List UInt8) := do
  check w.mkdirError
  let projects ← Secrets.encryptNodePasswords s.crypto s.encKey w.nonce env.projects
  let b := contentOf { env with projects }
  check w.writeError
  check w.renameError
  return b

end

section

variable {α β : Type}

theorem map_map_items {f : α → β} {g : β → α} (h : ∀ x, g (f x) = x) (items : List α) :
    (items.map f).map g = items := by
  rw [List.map_map]
  exact (List.map_congr_left fun x _ => h x).trans items.map_id

theorem map_map_self {f : α → β} {g : β → α} (h : ∀ x, g (f x) = x) (p : Option α) :
    (p.map f).map g = p := by
  cases p with
  | none => rfl
  | some x => exact congrArg some (h x)

theorem toSlice_ofSlice {f : α → β} {g : β → α} (h : ∀ x, g (f x) = x) (s : Slice α) :
    toSlice g (ofSlice f s) = s := by
  cases s with
  | nil => rfl
  | of items => exact congrArg Slice.of (map_map_items h items)

theorem ofSlice_toSlice {f : α → β} {g : β → α} (h : ∀ x, g (f x) = x) (s : Option (List α)) :
    ofSlice g (toSlice f s) = s := by
  cases s with
  | none => rfl
  | some items => exact congrArg some (map_map_items h items)

theorem toNode_ofNode (n : Node) : toNode (ofNode n) = n :=
  congrArg₂ (fun instanceMeta sshHint => { n with instanceMeta, sshHint })
    (map_map_self (g := toInstanceMeta) (fun _ => rfl) n.instanceMeta)
    (map_map_self (g := toSSHHint) (fun _ => rfl) n.sshHint)

theorem ofNode_toNode (r : nodeFields.Rep) : ofNode (toNode r) = r := by
  obtain ⟨id, name, host, port, user, password, database, clusterType, role, source, dsn,
    instanceMeta, sshHint, rest⟩ := r
  exact congrArg₂ (fun instanceMeta sshHint => (id, name, host, port, user, password, database,
    clusterType, role, source, dsn, instanceMeta, sshHint, rest))
    (map_map_self (g := ofInstanceMeta) (fun _ => rfl) instanceMeta)
    (map_map_self (g := ofSSHHint) (fun _ => rfl) sshHint)

theorem toCluster_ofCluster (c : Cluster) : toCluster (ofCluster c) = c :=
  congrArg₂ (fun runtime nodes => { c with runtime, nodes })
    (map_map_self (g := toRuntime) (fun _ => rfl) c.runtime) (toSlice_ofSlice toNode_ofNode c.nodes)

theorem ofCluster_toCluster (r : clusterFields.Rep) : ofCluster (toCluster r) = r := by
  obtain ⟨id, name, replicationType, alertThresholdSec, provisionMode, provisionTaskID, runtime,
    nodes, rest⟩ := r
  exact congrArg₂ (fun runtime nodes => (id, name, replicationType, alertThresholdSec,
    provisionMode, provisionTaskID, runtime, nodes, rest))
    (map_map_self (g := ofRuntime) (fun _ => rfl) runtime) (ofSlice_toSlice ofNode_toNode nodes)

theorem toComponent_ofComponent (m : Component) : toComponent (ofComponent m) = m :=
  congrArg (fun linkedClusterIDs => { m with linkedClusterIDs })
    (toSlice_ofSlice (fun _ => rfl) m.linkedClusterIDs)

theorem ofComponent_toComponent (r : componentFields.Rep) : ofComponent (toComponent r) = r := by
  obtain ⟨id, name, componentType, linkedClusterIDs, rest⟩ := r
  exact congrArg (fun linkedClusterIDs => (id, name, componentType, linkedClusterIDs, rest))
    (ofSlice_toSlice (fun _ => rfl) linkedClusterIDs)

theorem toProject_ofProject (p : Project) : toProject (ofProject p) = p :=
  congrArg₂ (fun clusters components => { p with clusters, components })
    (toSlice_ofSlice toCluster_ofCluster p.clusters)
    (toSlice_ofSlice toComponent_ofComponent p.components)

theorem ofProject_toProject (r : projectFields.Rep) : ofProject (toProject r) = r := by
  obtain ⟨id, name, clusters, components, rest⟩ := r
  exact congrArg₂ (fun clusters components => (id, name, clusters, components, rest))
    (ofSlice_toSlice ofCluster_toCluster clusters)
    (ofSlice_toSlice ofComponent_toComponent components)

theorem toEnvelope_ofEnvelope (env : Envelope) : toEnvelope (ofEnvelope env) = env :=
  congrArg₂ (fun projects hosts => { env with projects, hosts })
    (toSlice_ofSlice toProject_ofProject env.projects) (toSlice_ofSlice (fun _ => rfl) env.hosts)

theorem ofEnvelope_toEnvelope (r : envelopeFields.Rep) : ofEnvelope (toEnvelope r) = r := by
  obtain ⟨schemaVersion, projects, hosts, rest⟩ := r
  exact congrArg₂ (fun projects hosts => (schemaVersion, projects, hosts, rest))
    (ofSlice_toSlice ofProject_toProject projects) (ofSlice_toSlice (fun _ => rfl) hosts)

theorem itemsFit_ofSlice {P : β → Prop} {f : α → β} {s : Slice α} :
    ItemsFit P (ofSlice f s) ↔ ∀ x ∈ s.items, P (f x) := by
  cases s with
  | nil => exact iff_of_true nofun nofun
  | of items => exact List.forall_mem_map

theorem types_distinct : projectsType.Distinct ∧ envelopeType.Distinct := by
  simp [projectsType, envelopeType, envelopeFields, projectFields, hostFields, componentFields,
    clusterFields, runtimeFields, nodeFields, sshHintFields, instanceMetaFields, Ty.Distinct,
    Fields.Distinct, Fields.names]

theorem types_tidy : projectsType.Tidy ∧ envelopeType.Tidy := by
  simp [projectsType, envelopeType, envelopeFields, projectFields, hostFields, componentFields,
    clusterFields, runtimeFields, nodeFields, sshHintFields, instanceMetaFields, Ty.Tidy,
    Fields.Tidy, Ty.isSlice]

theorem envelope_depth : envelopeType.depth ≤ maxNestingDepth := by decide

theorem fits_normalizeCluster {c : Cluster} (h : clusterFields.Fits (ofCluster c)) :
    clusterFields.Fits (ofCluster (normalizeCluster c)) := by
  obtain ⟨hid, hid0, hname, hname0, htype, htype0, hthreshold, -, hmode, hmode0, htask, htask0,
    hruntime, hruntime0, hnodes, -⟩ := h
  have hthreshold : IsInt64 (normalizeCluster c).alertThresholdSec := by
    unfold normalizeCluster
    dsimp only
    split
    · decide
    · exact hthreshold
  refine ⟨hid, hid0, hname, hname0, htype, htype0, hthreshold, fun _ h => h, hmode, hmode0, htask,
    htask0, hruntime, hruntime0, ?_, nofun, trivial⟩
  exact itemsFit_ofSlice.mpr (itemsFit_ofSlice (s := c.nodes).mp hnodes)

theorem fits_normalizeComponent {m : Component} (h : componentFields.Fits (ofComponent m)) :
    componentFields.Fits (ofComponent (normalizeComponent m)) := by
  obtain ⟨hid, hid0, hname, hname0, htype, htype0, -⟩ := h
  exact ⟨hid, hid0, hname, hname0, htype, htype0, fun _ _ => trivial, nofun, trivial⟩

theorem fits_normalizeProject {p : Project} (h : projectFields.Fits (ofProject p)) :
    projectFields.Fits (ofProject (normalizeProject p)) := by
  obtain ⟨hid, hid0, hname, hname0, hclusters, -, hcomponents, -⟩ := h
  refine ⟨hid, hid0, hname, hname0, ?_, nofun, ?_, nofun, trivial⟩
  · refine itemsFit_ofSlice.mpr (List.forall_mem_map.mpr fun c hc => ?_)
    exact fits_normalizeCluster (itemsFit_ofSlice (s := p.clusters).mp hclusters c hc)
  · refine itemsFit_ofSlice.mpr (List.forall_mem_map.mpr fun m hm => ?_)
    exact fits_normalizeComponent (itemsFit_ofSlice (s := p.components).mp hcomponents m hm)

theorem fits_normalizeProjects {projects : Slice Project}
    (h : projectsType.Fits (ofSlice ofProject projects)) :
    projectsType.Fits (ofSlice ofProject (normalizeProjects projects)) := by
  refine itemsFit_ofSlice.mpr (List.forall_mem_map.mpr fun p hp => ?_)
  exact fits_normalizeProject (itemsFit_ofSlice (s := projects).mp h p hp)

end

section

variable {describe : List UInt8 → String} {s : WorkspaceStore} {w : World} {env : Envelope}
  {content : Option (List UInt8)} {bytes : List UInt8} {projects : Slice Project}

theorem legacy_of_file (h : fileOf describe content = .legacy projects) :
    projectsType.Fits (ofSlice ofProject projects) := by
  cases content with
  | none => cases h
  | some bytes =>
    simp only [fileOf] at h
    split at h
    · cases h
    · split at h
      next r hr =>
        cases h
        exact Eq.mpr (congrArg projectsType.Fits (ofSlice_toSlice ofProject_toProject r))
          (fits_of_unmarshal types_tidy.1 hr)
      next =>
        split at h <;> cases h

theorem envelope_of_file (h : fileOf describe content = .envelope env) :
    envelopeType.Fits (ofEnvelope env) := by
  cases content with
  | none => cases h
  | some bytes =>
    simp only [fileOf] at h
    split at h
    · cases h
    · split at h
      · cases h
      · split at h
        next r hr =>
          cases h
          exact Eq.mpr (congrArg envelopeType.Fits (ofEnvelope_toEnvelope r))
            (fits_of_unmarshal types_tidy.2 hr)
        next => cases h

theorem fits_of_read (hplain : s.encKey = none) (h : readContent describe s w content = .ok env) :
    envelopeType.Fits (ofEnvelope env) := by
  have hdecrypt (projects : Slice Project) :
      Secrets.decryptNodePasswords s.crypto s.encKey projects = projects := by
    rw [hplain]
    rfl
  have hempty : envelopeType.Fits (ofEnvelope emptyEnvelope) :=
    ⟨(by decide : IsInt64 2), nofun, nofun, nofun, nofun, nofun, trivial⟩
  unfold readContent readEnvelopeNoLock at h
  obtain ⟨-, -, h⟩ := bind_ok.mp h
  cases hfile : fileOf describe content with
  | missing | blank =>
    rw [hfile] at h
    cases h
    exact hempty
  | malformed err =>
    rw [hfile] at h
    cases h
  | legacy projects =>
    rw [hfile] at h
    cases h
    rw [hdecrypt]
    exact ⟨(by decide : IsInt64 0), nofun, fits_normalizeProjects (legacy_of_file hfile), nofun,
      nofun, nofun, trivial⟩
  | envelope env =>
    rw [hfile] at h
    cases h
    obtain ⟨hversion, -, hprojects, -, hhosts, -⟩ := envelope_of_file hfile
    rw [hdecrypt]
    refine ⟨?_, nofun, fits_normalizeProjects hprojects, nofun, hhosts, nofun, trivial⟩
    change IsInt64 (if env.schemaVersion ≤ 0 then currentWorkspaceSchemaVersion
      else env.schemaVersion)
    split
    · decide
    · exact hversion

theorem fileOf_contentOf (h : envelopeType.Fits (ofEnvelope env)) :
    fileOf describe (some (contentOf env)) = .envelope env := by
  have htext : decodeRunes (contentOf env) = marshal envelopeType (ofEnvelope env) :=
    decodeRunes_encodeRunes _
  have hback := unmarshal_marshal envelope_depth types_distinct.2 h
  have hobject : parse (marshal envelopeType (ofEnvelope env)) =
      some (.object (envelopeFields.members (ofEnvelope env))) :=
    parse_render (envelopeType.within_encode _ envelope_depth)
  have hlegacy : unmarshal projectsType (marshal envelopeType (ofEnvelope env)) = none := by
    unfold unmarshal
    rw [hobject]
    rfl
  have hfirst : ∃ rest, marshal envelopeType (ofEnvelope env) = '\x7b' :: rest :=
    ⟨_, rfl⟩
  obtain ⟨rest, hrest⟩ := hfirst
  have hblank : (marshal envelopeType (ofEnvelope env)).all isSpace = false := by
    rw [hrest]
    rfl
  simp only [fileOf, htext, hblank, Bool.false_eq_true, if_false, hlegacy, hback,
    toEnvelope_ofEnvelope]

theorem parse_blank {text : List Char} (h : text.all isSpace = true) : parse text = none := by
  refine parse_foreign fun c hc => ?_
  have hspace := List.all_eq_true.mp h c hc
  by_cases hascii : c.toNat < 128
  · have hall : ∀ n < 128, isSpace (Char.ofNat n) = true →
        Char.ofNat n ≠ '"' ∧ mark (Char.ofNat n) = none ∧
          (numberStep .start (Char.ofNat n)).isNone = true ∧ Char.ofNat n ∉ ['n', 't', 'f'] := by
      decide
    have hc := hall c.toNat hascii
    rw [Char.ofNat_toNat] at hc
    obtain ⟨hquote, hmark, hnumber, hletter⟩ := hc hspace
    exact ⟨hquote, hmark, Option.isNone_iff_eq_none.mp hnumber, hletter⟩
  · exact foreign_of_nonascii (Nat.not_lt.mp hascii)

end

def NamesProjects (key : String) : Prop := key.toList.map fold = "projects".toList.map fold

def projectsOf : envelopeFields.Rep → projectsType.Rep
  | (_, projects, _) => projects

section

variable {members before after : List (String × Value)} {m : String × Value} {v : Value}
  {old new : envelopeFields.Rep}

theorem projectsOf_member (hname : ¬ NamesProjects m.1)
    (h : decodeMember envelopeFields.names envelopeFields.assign old m = some new) :
    projectsOf new = projectsOf old := by
  obtain ⟨schemaVersion, projects, hosts, rest⟩ := old
  unfold decodeMember at h
  split at h
  next i hi =>
    match i with
    | 0 =>
      obtain ⟨version, -, rfl⟩ := Option.map_eq_some_iff.mp h
      rfl
    | 1 =>
      obtain ⟨name, hsome, hfold⟩ := fold_of_find hi
      cases hsome
      exact absurd hfold.symm hname
    | i + 2 =>
      obtain ⟨more, hmore, rfl⟩ := Option.map_eq_some_iff.mp h
      obtain ⟨more', -, rfl⟩ := Option.map_eq_some_iff.mp hmore
      rfl
  next =>
    cases h
    rfl

theorem projectsOf_members (hnames : ∀ m ∈ members, ¬ NamesProjects m.1)
    (h : members.foldlM (decodeMember envelopeFields.names envelopeFields.assign) old = some new) :
    projectsOf new = projectsOf old := by
  induction members generalizing old with
  | nil =>
    cases h
    rfl
  | cons m members ih =>
    obtain ⟨hm, hmembers⟩ := List.forall_mem_cons.mp hnames
    obtain ⟨next, hnext, h⟩ := Option.bind_eq_some_iff.mp h
    rw [ih hmembers h, projectsOf_member hm hnext]

theorem decode_projects (hnames : ∀ m ∈ before ++ after, ¬ NamesProjects m.1)
    (h : envelopeType.decode envelopeType.zero (.object (before ++ ("projects", v) :: after)) =
      some new) :
    projectsType.decode projectsType.zero v = some (projectsOf new) := by
  obtain ⟨hbefore, hafter⟩ := List.forall_mem_append.mp hnames
  replace h := List.foldlM_append.symm.trans h
  obtain ⟨r, -, h⟩ := Option.bind_eq_some_iff.mp h
  obtain ⟨next, hnext, h⟩ := Option.bind_eq_some_iff.mp h
  have hfind : find envelopeFields.names "projects" = some 1 := by
    simp [find, envelopeFields, Fields.names, List.idxOf?_cons]
  rw [projectsOf_members hafter h]
  unfold decodeMember at hnext
  rw [hfind] at hnext
  obtain ⟨schemaVersion, old, hosts, rest⟩ := r
  obtain ⟨more, hmore, rfl⟩ := Option.map_eq_some_iff.mp hnext
  obtain ⟨projects, hprojects, rfl⟩ := Option.map_eq_some_iff.mp hmore
  exact hprojects

end

structure NormalCluster (c : Cluster) : Prop where
  nodes : c.nodes ≠ .nil
  threshold : 0 < c.alertThresholdSec

structure NormalProject (p : Project) : Prop where
  clusters : p.clusters ≠ .nil
  components : p.components ≠ .nil
  inClusters : ∀ c ∈ p.clusters.items, NormalCluster c
  links : ∀ m ∈ p.components.items, m.linkedClusterIDs ≠ .nil

structure NormalProjects (projects : Slice Project) : Prop where
  list : projects ≠ .nil
  inProjects : ∀ p ∈ projects.items, NormalProject p

/-- Loading and migration change nothing but the format. -/
structure Stable (describe : List UInt8 → String) (s : WorkspaceStore) : Prop where
  normal : ∀ w content env, readContent describe s w content = .ok env → NormalProjects env.projects
  formats : ∀ w legacy envelope before v after env, parse (decodeRunes legacy) = some v →
    parse (decodeRunes envelope) = some (.object (before ++ ("projects", v) :: after)) →
    (∀ m ∈ before ++ after, ¬ NamesProjects m.1) →
    readContent describe s w (some envelope) = .ok env →
    ∃ old, readContent describe s w (some legacy) = .ok old ∧ old.projects = env.projects
  rewritten : ∀ w w' w'' content env bytes, readContent describe s w content = .ok env →
    writeContent s w' env = .ok bytes → w''.readError = none →
    ∃ again, readContent describe s w'' (some bytes) = .ok again ∧
      again.projects = env.projects ∧ again.hosts = env.hosts

section

variable {describe : List UInt8 → String} {s : WorkspaceStore} {w w' w'' : World} {env : Envelope}
  {content : Option (List UInt8)} {bytes legacy envelope : List UInt8}

theorem normal_normalize (projects : Slice Project) : NormalProjects (normalizeProjects projects) := by
  refine ⟨nofun, List.forall_mem_map.mpr fun p _ => ⟨nofun, nofun, ?_, ?_⟩⟩
  · refine List.forall_mem_map.mpr fun c _ => ⟨nofun, ?_⟩
    unfold normalizeCluster
    dsimp only
    split <;> omega
  · exact List.forall_mem_map.mpr fun m _ => nofun

theorem writeContent_ok (h : writeContent s w env = .ok bytes) :
    ∃ projects, Secrets.encryptNodePasswords s.crypto s.encKey w.nonce env.projects = .ok projects ∧
      bytes = contentOf { env with projects } := by
  unfold writeContent at h
  obtain ⟨-, -, h⟩ := bind_ok.mp h
  obtain ⟨projects, hprojects, h⟩ := bind_ok.mp h
  obtain ⟨-, -, h⟩ := bind_ok.mp h
  obtain ⟨-, -, h⟩ := bind_ok.mp h
  cases h
  exact ⟨projects, hprojects, rfl⟩

theorem fileOf_parsed {v : Value} (h : parse (decodeRunes bytes) = some v) :
    fileOf describe (some bytes) = match projectsType.decode projectsType.zero v with
      | some projects => .legacy (toSlice toProject projects)
      | none => match envelopeType.decode envelopeType.zero v with
        | some env => .envelope (toEnvelope env)
        | none => .malformed (describe bytes) := by
  have hblank : (decodeRunes bytes).all isSpace = false := by
    rw [Bool.eq_false_iff]
    intro hblank
    rw [parse_blank hblank] at h
    cases h
  simp only [fileOf, hblank, Bool.false_eq_true, if_false, unmarshal, h, Option.bind_some]

theorem read_legacy {before after : List (String × Value)} {v : Value}
    (hlegacy : parse (decodeRunes legacy) = some v)
    (henvelope : parse (decodeRunes envelope) = some (.object (before ++ ("projects", v) :: after)))
    (hnames : ∀ m ∈ before ++ after, ¬ NamesProjects m.1)
    (h : readContent describe s w (some envelope) = .ok env) :
    ∃ old, readContent describe s w (some legacy) = .ok old ∧ old.projects = env.projects := by
  have hobject : projectsType.decode projectsType.zero
      (.object (before ++ ("projects", v) :: after)) = none := rfl
  unfold readContent at h ⊢
  rw [fileOf_parsed henvelope, hobject] at h
  cases hdecode : envelopeType.decode envelopeType.zero
      (.object (before ++ ("projects", v) :: after)) with
  | none =>
    rw [hdecode] at h
    obtain ⟨-, -, h⟩ := bind_ok.mp h
    cases h
  | some r =>
    rw [hdecode] at h
    obtain ⟨⟨⟩, hread, h⟩ := bind_ok.mp h
    cases h
    rw [fileOf_parsed hlegacy, decode_projects hnames hdecode]
    exact ⟨_, bind_ok.mpr ⟨(), hread, rfl⟩, rfl⟩

theorem read_rewritten (hplain : s.encKey = none) (h : readContent describe s w content = .ok env)
    (hwrite : writeContent s w' env = .ok bytes) (hread : w''.readError = none) :
    ∃ again, readContent describe s w'' (some bytes) = .ok again ∧
      again.projects = env.projects ∧ again.hosts = env.hosts := by
  obtain ⟨projects, hencrypt, rfl⟩ := writeContent_ok hwrite
  rw [hplain] at hencrypt
  cases hencrypt
  unfold readContent
  rw [fileOf_contentOf (fits_of_read hplain h)]
  refine ⟨_, bind_ok.mpr ⟨(), by rw [hread]; rfl, rfl⟩, ?_, rfl⟩
  dsimp only
  rw [hplain]
  exact Locality.projects_normal h

end

theorem migration_stable (describe : List UInt8 → String) (s : WorkspaceStore)
    (hplain : s.encKey = none) : Stable describe s := by
  constructor
  · intro w content env h
    rw [← Locality.projects_normal h]
    exact normal_normalize env.projects
  · intro w legacy envelope before v after env hlegacy henvelope hnames h
    exact read_legacy hlegacy henvelope hnames h
  · intro w w' w'' content env bytes h hwrite hread
    exact read_rewritten hplain h hwrite hread

/-- A project of an older version, without lists and threshold. -/
def oldProjects : Value :=
  .array [.object [("id", .string "p1"), ("name", .string "shop"),
    ("clusters", .array [.object [("id", .string "c1"), ("nodes", .null)]]), ("components", .null)]]

def oldArray : List UInt8 := encodeRunes (oldProjects.render 0)

def oldEnvelope : List UInt8 := encodeRunes ((Value.object
  ([("schemaVersion", .number ['2'])] ++ ("projects", oldProjects) :: [("hosts", .null)])).render 0)

/-- Both formats are read, and as the same projects. -/
theorem migration_stable_oldProjects : ∃ env old,
    readContent (fun _ => "invalid character") ⟨Secrets.zeroCrypto, none⟩ quiet (some oldEnvelope) =
      .ok env ∧
    readContent (fun _ => "invalid character") ⟨Secrets.zeroCrypto, none⟩ quiet (some oldArray) =
      .ok old ∧
    old.projects = env.projects ∧ NormalProjects env.projects ∧
    env.projects.items.map (·.id) = ["p1"] := by
  have hids : (readContent (fun _ => "invalid character") ⟨Secrets.zeroCrypto, none⟩ quiet
      (some oldEnvelope)).toOption.map (·.projects.items.map (·.id)) = some ["p1"] := by
    decide +kernel
  have hstable := migration_stable (fun _ => "invalid character") ⟨Secrets.zeroCrypto, none⟩ rfl
  have hwithin (depth : Nat) : oldProjects.Within (depth + 4) := by
    simp [oldProjects, Value.Within, ItemsWithin, MembersWithin]
  have harray : parse (decodeRunes oldArray) = some oldProjects := by
    unfold oldArray
    rw [decodeRunes_encodeRunes]
    exact parse_render (hwithin _)
  have henvelope : parse (decodeRunes oldEnvelope) = some (.object
      ([("schemaVersion", .number ['2'])] ++ ("projects", oldProjects) :: [("hosts", .null)])) := by
    unfold oldEnvelope
    rw [decodeRunes_encodeRunes]
    exact parse_render ⟨by decide, rfl, hwithin _, trivial, trivial⟩
  have hnames : ∀ m ∈ [("schemaVersion", Value.number ['2'])] ++ [("hosts", Value.null)],
      ¬ NamesProjects m.1 := by
    unfold NamesProjects
    decide +kernel
  cases hread : readContent (fun _ => "invalid character") ⟨Secrets.zeroCrypto, none⟩ quiet
      (some oldEnvelope) with
  | error err =>
    rw [hread] at hids
    cases hids
  | ok env =>
    rw [hread] at hids
    obtain ⟨old, hold, hsame⟩ := hstable.formats quiet _ _ _ _ _ env harray henvelope hnames hread
    exact ⟨env, old, rfl, hold, hsame, hstable.normal quiet _ env hread, Option.some_inj.mp hids⟩

end LearnPg.Workspace.FileText
