import LearnPg.Api.Tasks
import LearnPg.Provision.Untasked

/-! The records that a handler writes of its task follow one another as they should,
whatever the replies to its calls are. -/
namespace LearnPg.Api

open Workspace.Store Provision Basis.Calls Basis.Runs

/-- The record `b` is written after the record `a`. -/
structure Next (a b : ProvisionTask) : Prop where
  taskID : b.taskID = a.taskID
  projectID : b.projectID = a.projectID
  clusterID : b.clusterID = a.clusterID
  taskType : b.taskType = a.taskType
  progress : a.progress ≤ b.progress
  running : ¬ Ended a

def Conforms (typed : Prop) (last : Option ProvisionTask) (c : Call) : Prop :=
  ∀ t ∈ c.record, (typed → t.taskType ≠ "") ∧ ∀ a ∈ last, Next a t

def afterCall (last : Option ProvisionTask) (c : Call) : Option ProvisionTask := c.record.or last

/-- A handler that ends with a record that has ended, if it has written any. -/
abbrev Follows {α : Type} (typed : Prop) (p : Prog α) (Q : Option ProvisionTask → Prop)
    (last : Option ProvisionTask) : Prop :=
  p.Follows (Conforms typed) afterCall Q last

def LastEnded (last : Option ProvisionTask) : Prop := ∀ a ∈ last, Ended a

/-- The last record is one of `task`, which has got to `progress` at most. -/
structure Running (typed : Prop) (task : ProvisionTask) (progress : Nat)
    (last : Option ProvisionTask) : Prop where
  typed : typed → task.taskType ≠ ""
  last : ∀ a ∈ last, Next a { task with progress }

section Handlers

variable {typed : Prop} {task : ProvisionTask} {n : Nat} {last : Option ProvisionTask}
  {cfg : PgConfig} {service : Service}

theorem untasked_conforms (last : Option ProvisionTask) (c : Call) (h : c.record = none) :
    Conforms typed last c ∧ afterCall last c = last := by
  simp [Conforms, afterCall, h]

theorem follows_untasked {α β : Type} {p : Prog α} {g : α → Prog β}
    {Q : Option ProvisionTask → Prop} (h : Untasked p) (hg : ∀ a, Follows typed (g a) Q last) :
    Follows typed (p >>= g) Q last :=
  follows_bind_only untasked_conforms h hg

theorem Running.next (h : Running typed task n last) {t : ProvisionTask} (hn : n ≤ t.progress)
    (hsame : t.taskID = task.taskID ∧ t.projectID = task.projectID ∧
      t.clusterID = task.clusterID ∧ t.taskType = task.taskType) :
    Conforms typed last (.setProvisionTask t) := by
  obtain ⟨htask, hproject, hcluster, htype⟩ := hsame
  intro _ ht
  cases ht
  constructor
  · rw [htype]
    exact h.typed
  · intro a ha
    have hnext := h.last a ha
    exact ⟨htask.trans hnext.taskID, hproject.trans hnext.projectID,
      hcluster.trans hnext.clusterID, htype.trans hnext.taskType, Nat.le_trans hnext.progress hn,
      hnext.running⟩

theorem setRunning_follows (h : Running typed task n last) {progress : Nat}
    (hn : n ≤ progress) (message : String) :
    Follows typed (setRunning task progress message) (Running typed task progress) last := by
  refine follows_untasked (untasked_invoke rfl) fun startedAt => ?_
  refine ⟨h.next hn ⟨rfl, rfl, rfl, rfl⟩, fun _ => ⟨h.typed, ?_⟩⟩
  intro a ha
  cases ha
  exact ⟨rfl, rfl, rfl, rfl, Nat.le_refl _, by simp [Ended]⟩

theorem setFailed_follows (h : Running typed task n last) (hn : n ≤ 100)
    (message error : String) :
    Follows typed (setFailed task message error) LastEnded last := by
  refine follows_untasked (untasked_invoke rfl) fun startedAt => ?_
  refine follows_untasked (untasked_invoke rfl) fun finishedAt => ?_
  refine ⟨h.next hn ⟨rfl, rfl, rfl, rfl⟩, fun _ a ha => ?_⟩
  cases ha
  exact .inr rfl

theorem setSucceeded_follows (h : Running typed task n last) (hn : n ≤ 100) (message : String)
    (nodeIDs : List String) :
    Follows typed (setSucceeded task message nodeIDs) LastEnded last := by
  refine follows_untasked (untasked_invoke rfl) fun startedAt => ?_
  refine follows_untasked (untasked_invoke rfl) fun finishedAt => ?_
  refine ⟨h.next hn ⟨rfl, rfl, rfl, rfl⟩, fun _ a ha => ?_⟩
  cases ha
  exact .inl rfl

theorem setFailed_responds (h : Running typed task n last) (hn : n ≤ 100)
    (message error : String) (err : ApiError) :
    Follows typed (setFailed task message error >>= fun _ =>
      (pure (.error err) : Prog (Except ApiError ProvisionResponse))) LastEnded last :=
  follows_bind (setFailed_follows h hn message error) fun _ _ hlast => hlast

theorem provisionSingle_follows (h : Running typed task 0 last) (req : ProvisionSingleRequest)
    (nodeID : String) :
    Follows typed (provisionSingle cfg service req task nodeID) LastEnded last := by
  refine follows_bind (setRunning_follows h (by decide) _) fun _ _ h5 => ?_
  refine follows_bind (setRunning_follows h5 (by decide) _) fun _ _ h10 => ?_
  refine follows_untasked (Service.startSingle_untasked _ _ _) fun started => ?_
  cases started with
  | error err => exact setFailed_responds h10 (by decide) _ _ _
  | ok info =>
    refine follows_bind (setRunning_follows h10 (by decide) _) fun _ _ h70 => ?_
    refine follows_untasked (untasked_invoke rfl) fun err => ?_
    cases err with
    | some err =>
      refine follows_untasked (Service.stopInstance_untasked info) fun _ => ?_
      exact setFailed_responds h70 (by decide) _ _ _
    | none =>
      refine follows_bind (setRunning_follows h70 (by decide) _) fun _ _ h90 => ?_
      refine follows_untasked (untasked_invoke rfl) fun connected => ?_
      exact follows_bind (setSucceeded_follows h90 (by decide) _ _) fun _ _ hlast => hlast

section Replica

variable {req : ReplicaProvisionRequest} {replType primaryNodeID standbyNodeID : String}
  {primaryInfo : InstanceInfo}

theorem saveReplica_follows (h : Running typed task 40 last) (replicaInfo : ReplicaInfo) :
    Follows typed (saveReplica cfg req replType task primaryNodeID standbyNodeID primaryInfo
      replicaInfo) LastEnded last := by
  refine follows_bind (setRunning_follows h (by decide) _) fun _ _ h60 => ?_
  refine follows_untasked (untasked_invoke rfl) fun err => ?_
  cases err with
  | some err =>
    refine follows_untasked (DockerReplication.down_untasked _) fun _ => ?_
    refine follows_untasked (Service.stopInstance_untasked primaryInfo) fun _ => ?_
    exact setFailed_responds h60 (by decide) _ _ _
  | none =>
    refine follows_bind (setRunning_follows h60 (by decide) _) fun _ _ h70 => ?_
    refine follows_untasked (untasked_invoke rfl) fun connected => ?_
    exact follows_bind (setSucceeded_follows h70 (by decide) _ _) fun _ _ hlast => hlast

theorem addReplica_follows (h : Running typed task 10 last) (primaryPort : Int) :
    Follows typed (addReplica cfg service req replType task primaryNodeID standbyNodeID primaryPort
      primaryInfo) LastEnded last := by
  refine follows_bind (setRunning_follows h (by decide) _) fun _ _ h30 => ?_
  refine follows_untasked (waitForPort_untasked _ _ _) fun err => ?_
  cases err with
  | some err =>
    refine follows_untasked (Service.stopInstance_untasked primaryInfo) fun _ => ?_
    exact setFailed_responds h30 (by decide) _ _ _
  | none =>
    refine follows_bind (setRunning_follows h30 (by decide) _) fun _ _ h40 => ?_
    rw [if_neg (not_not.mpr (by decide))]
    refine follows_untasked (DockerReplication.startReplica_untasked _ _ _) fun started => ?_
    cases started with
    | error err =>
      refine follows_untasked (Service.stopInstance_untasked primaryInfo) fun _ => ?_
      exact setFailed_responds h40 (by decide) _ _ _
    | ok replicaInfo => exact saveReplica_follows h40 replicaInfo

theorem provisionReplica_follows (h : Running typed task 0 last) :
    Follows typed (provisionReplica cfg service req replType task primaryNodeID standbyNodeID)
      LastEnded last := by
  refine follows_bind (setRunning_follows h (by decide) _) fun _ _ h5 => ?_
  refine follows_bind (setRunning_follows h5 (by decide) _) fun _ _ h10 => ?_
  refine follows_untasked (Service.startSingle_untasked _ _ _) fun started => ?_
  cases started with
  | error err => exact setFailed_responds h10 (by decide) _ _ _
  | ok primaryInfo => exact addReplica_follows h10 _

end Replica

theorem genID_untasked (kind : String) : Untasked (genID kind) :=
  untasked_bind (untasked_invoke rfl) fun _ => untasked_pure _

theorem running_none (h : typed → task.taskType ≠ "") : Running typed task n none :=
  ⟨h, nofun⟩

theorem serveProvisionSingle_follows (method : String) (body : Option ProvisionSingleRequest) :
    Follows False (serveProvisionSingle cfg service method body) LastEnded none := by
  unfold serveProvisionSingle
  split
  · exact nofun
  split
  · exact nofun
  split
  · exact nofun
  refine follows_untasked (genID_untasked _) fun taskID => ?_
  refine follows_untasked (genID_untasked _) fun clusterID => ?_
  refine follows_untasked (genID_untasked _) fun nodeID => ?_
  exact provisionSingle_follows (running_none False.elim) _ _

theorem serveProvisionReplica_follows (method : String) (req : ReplicaProvisionRequest) :
    Follows True (serveProvisionReplica cfg service method req) LastEnded none := by
  have htype (replType : String) : "provision." ++ replType ≠ "" := by simp
  unfold serveProvisionReplica
  generalize toLower (trimSpace req.type) = replType
  dsimp only
  split
  · exact nofun
  split
  · exact nofun
  split
  · exact nofun
  refine follows_untasked (genID_untasked _) fun taskID => ?_
  refine follows_untasked (genID_untasked _) fun clusterID => ?_
  refine follows_untasked (genID_untasked _) fun primaryNodeID => ?_
  refine follows_untasked (genID_untasked _) fun standbyNodeID => ?_
  exact provisionReplica_follows (running_none fun _ => htype _)

theorem serve_follows (method : String) (request : ProvisionRequest) :
    Follows request.Typed (request.serve cfg service method) LastEnded none := by
  cases request with
  | single body => exact serveProvisionSingle_follows method body
  | physical body =>
    cases body with
    | none => exact nofun
    | some req => exact serveProvisionReplica_follows method { req with type := "physical" }
  | logical body =>
    cases body with
    | none => exact nofun
    | some req => exact serveProvisionReplica_follows method { req with type := "logical" }

end Handlers

end LearnPg.Api
