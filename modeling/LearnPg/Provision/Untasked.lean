import LearnPg.Provision.Providers

/-! The providers and the waits for a server leave the task list alone. -/
namespace LearnPg.Provision

open Basis.Calls

def Untasked {α : Type} (p : Prog α) : Prop := p.Only (·.record = none)

theorem untasked_pure {α : Type} (a : α) : Untasked (pure a : Prog α) := only_pure

theorem untasked_bind {α β : Type} {p : Prog α} {f : α → Prog β} (h : Untasked p)
    (hf : ∀ a, Untasked (f a)) : Untasked (p >>= f) :=
  only_bind h hf

theorem untasked_invoke {c : Call} (h : c.record = none) : Untasked (invoke c) := only_ask h

theorem untasked_command (c : Command) : Untasked (command c) := untasked_invoke rfl

theorem waitReady_untasked (probe : Command) (timeout : String) (attempts : Nat) :
    Untasked (waitReady probe timeout attempts) := by
  induction attempts with
  | zero => exact untasked_pure _
  | succ attempts ih =>
    refine untasked_bind (untasked_invoke rfl) fun err => ?_
    cases err with
    | some err => exact untasked_pure _
    | none =>
      refine untasked_bind (untasked_command probe) fun err => ?_
      cases err with
      | none => exact untasked_pure _
      | some err => exact ih

theorem waitForPort_untasked (host : String) (port : Int) (attempts : Nat) :
    Untasked (waitForPort host port attempts) := by
  induction attempts with
  | zero => exact untasked_pure _
  | succ attempts ih =>
    refine untasked_bind (untasked_invoke rfl) fun err => ?_
    cases err with
    | some err => exact untasked_pure _
    | none =>
      refine untasked_bind (untasked_invoke rfl) fun reached => ?_
      split
      · exact untasked_pure _
      · exact ih

namespace Docker

theorem stop_untasked (info : InstanceInfo) : Untasked (stop info) := by
  refine untasked_bind (untasked_command _) fun _ => ?_
  refine untasked_bind (untasked_command _) fun _ => ?_
  refine untasked_bind (untasked_command _) fun _ => ?_
  exact untasked_pure _

theorem ensureImage_untasked (image : String) : Untasked (ensureImage image) := by
  refine untasked_bind (untasked_invoke rfl) fun found => ?_
  split
  · exact untasked_pure _
  · exact untasked_command _

theorem choosePort_untasked (specPort : Int) : Untasked (choosePort specPort) := by
  refine untasked_bind (untasked_invoke rfl) fun inUse => ?_
  split
  · exact untasked_invoke rfl
  · exact untasked_pure _

theorem start_untasked (spec : InstanceSpec) : Untasked (start spec) := by
  refine untasked_bind (untasked_invoke rfl) fun now => ?_
  refine untasked_bind (ensureImage_untasked _) fun err => ?_
  cases err with
  | some err => exact untasked_pure _
  | none =>
    refine untasked_bind (untasked_command _) fun _ => ?_
    refine untasked_bind (choosePort_untasked _) fun port => ?_
    split
    · exact untasked_pure _
    · refine untasked_bind (untasked_command _) fun err => ?_
      cases err with
      | some err => exact untasked_pure _
      | none =>
        refine untasked_bind (waitReady_untasked _ _ _) fun err => ?_
        cases err with
        | none => exact untasked_pure _
        | some err => exact untasked_bind (stop_untasked _) fun _ => untasked_pure _

end Docker

namespace Local

theorem stop_untasked (info : InstanceInfo) : Untasked (stop info) := by
  refine untasked_bind (untasked_command _) fun err => ?_
  cases err with
  | some err => exact untasked_pure _
  | none => exact untasked_bind (untasked_invoke rfl) fun _ => untasked_pure _

theorem ensureInitialized_untasked (dataDir : String) : Untasked (ensureInitialized dataDir) := by
  refine untasked_bind (untasked_invoke rfl) fun stat => ?_
  cases stat with
  | found => exact untasked_pure _
  | failed err => exact untasked_pure _
  | notExist =>
    refine untasked_bind (untasked_command _) fun err => ?_
    cases err with
    | none => exact untasked_pure _
    | some err => exact untasked_bind (untasked_invoke rfl) fun _ => untasked_pure _

theorem chooseDataDir_untasked (spec : InstanceSpec) : Untasked (chooseDataDir spec) := by
  unfold chooseDataDir
  split
  · exact untasked_bind (untasked_invoke rfl) fun _ => untasked_pure _
  · exact untasked_pure _

theorem start_untasked (pid : Nat) (spec : InstanceSpec) : Untasked (start pid spec) := by
  refine untasked_bind (chooseDataDir_untasked spec) fun dataDir => ?_
  refine untasked_bind (untasked_invoke rfl) fun err => ?_
  cases err with
  | some err => exact untasked_pure _
  | none =>
    refine untasked_bind (ensureInitialized_untasked dataDir) fun err => ?_
    cases err with
    | some err => exact untasked_pure _
    | none =>
      refine untasked_bind (untasked_command _) fun err => ?_
      cases err with
      | some err => exact untasked_pure _
      | none =>
        refine untasked_bind (waitReady_untasked _ _ _) fun err => ?_
        cases err with
        | none => exact untasked_pure _
        | some err => exact untasked_bind (stop_untasked _) fun _ => untasked_pure _

end Local

namespace DockerReplication

theorem up_untasked (projectName content : String) : Untasked (up projectName content) := by
  refine untasked_bind (untasked_invoke rfl) fun err => ?_
  cases err with
  | some err => exact untasked_pure _
  | none =>
    refine untasked_bind (untasked_command _) fun err => ?_
    cases err <;> exact untasked_pure _

theorem down_untasked (projectName : String) : Untasked (down projectName) := by
  refine untasked_bind (untasked_command _) fun err => ?_
  cases err <;> exact untasked_pure _

theorem startReplica_untasked (compose : String → String) (spec : ReplicationSpec)
    (primaryInfo : InstanceInfo) : Untasked (startReplica compose spec primaryInfo) := by
  refine untasked_bind (untasked_invoke rfl) fun now => ?_
  refine untasked_bind (up_untasked _ _) fun err => ?_
  cases err with
  | some err => exact untasked_pure _
  | none =>
    refine untasked_bind (waitForPort_untasked _ _ _) fun err => ?_
    cases err with
    | none => exact untasked_pure _
    | some err => exact untasked_bind (down_untasked _) fun _ => untasked_pure _

end DockerReplication

namespace Service

theorem startSingle_untasked (s : Service) (spec : InstanceSpec) (providerID : String) :
    Untasked (s.startSingle spec providerID) := by
  have hwith (spec : InstanceSpec) : Untasked (s.startWith spec providerID) := by
    unfold startWith
    split
    · exact Docker.start_untasked spec
    · split
      · exact Local.start_untasked s.pid spec
      · exact untasked_pure _
  unfold startSingle
  split
  · refine untasked_bind (untasked_invoke rfl) fun port => ?_
    cases port with
    | error err => exact untasked_pure _
    | ok port => exact hwith _
  · exact hwith spec

theorem stopInstance_untasked (info : InstanceInfo) : Untasked (stopInstance info) := by
  unfold stopInstance
  split
  · exact Docker.stop_untasked info
  · split
    · exact Local.stop_untasked info
    · exact untasked_pure _

end Service

end LearnPg.Provision
