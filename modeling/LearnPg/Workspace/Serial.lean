import LearnPg.Workspace.Store

/-! Concurrent requests on the workspace store. The mutex makes each section
atomic but not the pair of sections of `upsert`, `deleteByID`, `appendCluster`
and `appendNode`: what such an operation writes was prepared from the file as it
stood at its first section. -/
namespace LearnPg.Workspace.Serial

open Data Secrets Store LearnPg.Basis.Runs LearnPg.Basis.Sections

variable {ι : Type} [DecidableEq ι]

def sections (s : WorkspaceStore) (reqs : ι → Request × World) :
    ι → Txn File (Slice Project) String :=
  fun i => txn s (reqs i).2 (reqs i).1

/-- If whatever a second section writes is what its request would prepare from
the file as it then stands, the file is that of the successful requests run whole,
one after another. -/
theorem file_serialized (s : WorkspaceStore) (reqs : ι → Request × World) (file : File)
    (schedule : List ι) {t : State ι File (Slice Project) String}
    (hrun : (requests (sections s reqs) file).run schedule = some t)
    (hfresh : (requests (sections s reqs) file).Meets (Fresh (sections s reqs))
      (requests (sections s reqs) file).init schedule) :
    ∃ order : List ι, order.Nodup ∧ (∀ i, i ∈ order ↔ t.pc i = .succeeded) ∧
      serial (sections s reqs) order file = .ok t.shared := by
  obtain ⟨order, h⟩ := run_serialized hrun hfresh
  exact ⟨order, h.nodup, h.mem_iff, h.result⟩

def node (id : String) : Node :=
  ⟨id, id, "10.0.0.1", 5432, "postgres", "", "postgres", "physical", "standby", "", "", none,
    none, "", "", "", ""⟩

def oneCluster : File :=
  .envelope ⟨currentWorkspaceSchemaVersion,
    .of [⟨"p1", "shop", .of [⟨"c1", "main", "streaming", 30, "", "", none, .of []⟩], .of []⟩],
    .nil⟩

def createAndAddHost : Bool → Request × World
  | true => (.upsert ⟨"p2", "blog", .of [], .of []⟩, quiet)
  | false => (.appendHost ⟨"h1", "db", "10.0.0.1", 22, "root", "", 1⟩, quiet)

theorem file_serialized_createAndAddHost :
    ∃ t, (requests (sections plainStore createAndAddHost) oneCluster).run [true, false, true] =
        some t ∧
      ∃ order : List Bool, order.Nodup ∧ (∀ i, i ∈ order ↔ t.pc i = .succeeded) ∧
        serial (sections plainStore createAndAddHost) order oneCluster = .ok t.shared := by
  have hsome : ((requests (sections plainStore createAndAddHost) oneCluster).run
      [true, false, true]).isSome = true := rfl
  obtain ⟨t, hrun⟩ := Option.isSome_iff_exists.mp hsome
  refine ⟨t, hrun, file_serialized plainStore createAndAddHost oneCluster _ hrun ?_⟩
  refine (meets_cons rfl).mpr ⟨trivial, (meets_cons rfl).mpr ⟨trivial, ?_⟩⟩
  exact (meets_cons rfl).mpr ⟨fun _ _ => rfl, trivial⟩

def twoImports : Bool → Request × World
  | true => (.appendNode "p1" "c1" (node "n1"), quiet)
  | false => (.appendNode "p1" "c1" (node "n2"), quiet)

theorem orders_of_bool {order : List Bool} (hnodup : order.Nodup) (hmem : ∀ i, i ∈ order) :
    order = [true, false] ∨ order = [false, true] := by
  have hperm : order.Perm [true, false] :=
    (List.perm_ext_iff_of_nodup hnodup (by decide)).mpr fun i => by
      cases i <;> simp [hmem]
  have hlength : order.length = 2 := hperm.length_eq
  obtain ⟨a, b, rfl⟩ := List.length_eq_two.mp hlength
  cases a <;> cases b <;> simp_all

/-- Both imports succeed and the file holds one of the two nodes. -/
theorem twoImports_not_serialized :
    ¬ ∀ (reqs : Bool → Request × World) (file : File) (schedule : List Bool)
        (t : State Bool File (Slice Project) String),
      (requests (sections plainStore reqs) file).run schedule = some t →
      ∃ order : List Bool, order.Nodup ∧ (∀ i, i ∈ order ↔ t.pc i = .succeeded) ∧
        serial (sections plainStore reqs) order file = .ok t.shared := by
  intro h
  obtain ⟨order, hnodup, hmem, hserial⟩ :=
    h twoImports oneCluster [true, false, true, false] _ rfl
  have hall : ∀ i, i ∈ order := fun i => (hmem i).mpr (by cases i <;> rfl)
  revert hserial
  rcases orders_of_bool hnodup hall with rfl | rfl
  · decide
  · decide

end LearnPg.Workspace.Serial
