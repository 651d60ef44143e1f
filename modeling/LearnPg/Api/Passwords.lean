import LearnPg.Api.Masking
import LearnPg.Api.NodeLists
import LearnPg.Workspace.AtRest

/-! Exactly which responses are the same whatever the passwords of the nodes are. -/
namespace LearnPg.Api.Passwords

open Workspace.Data Workspace.Store Workspace.Places Workspace.Writes Workspace.Edits
  Workspace.Erasure Workspace.Dsn Workspace.AtRest Workspace.Secrets Workspace

def bodyNodes : Body → List Node
  | .snapshot _ ps | .projects ps => allNodes ps
  | .project p => projectNodes p
  | .cluster c => c.nodes.items
  | .node n => [n]
  | .empty => []

section Nodes

variable {f g : Node → Node} {ps qs : Slice Project}

theorem bodyNodes_map (body : Body) : bodyNodes (body.mapNodes f) = (bodyNodes body).map f := by
  cases body with
  | snapshot version ps => exact allNodes_map
  | projects ps => exact allNodes_map
  | project p => exact projectNodes_map p
  | cluster c => exact items_map f c.nodes
  | node n => rfl
  | empty => rfl

theorem body_fixed {body : Body} (h : ∀ n ∈ bodyNodes body, f n = n) : body.mapNodes f = body := by
  cases body with
  | snapshot version ps => exact congrArg (Body.snapshot version) (mapNodes_fixed h)
  | projects ps => exact congrArg Body.projects (mapNodes_fixed h)
  | project p => exact congrArg Body.project (mapProject_self h)
  | cluster c => exact congrArg Body.cluster (mapCluster_self h)
  | node n => exact congrArg Body.node (h n (List.mem_singleton.mpr rfl))
  | empty => rfl

theorem body_nodes_fixed {body : Body} (h : body.mapNodes f = body) :
    ∀ n ∈ bodyNodes body, f n = n := by
  have hnodes := bodyNodes_map (f := f) body
  rw [h] at hnodes
  exact List.map_eq_map_iff.mp (hnodes.symm.trans (List.map_id _).symm)

theorem skProject_nodes (p : Project) :
    (projectNodes p).map skNode = (skProject p).2.flatMap (·.2) := by
  unfold projectNodes skProject
  rw [List.map_flatMap, List.flatMap_map]
  rfl

theorem skeleton_nodes :
    (allNodes ps).map skNode = (skeleton ps).flatMap fun p => p.2.flatMap (·.2) := by
  change (ps.items.flatMap projectNodes).map skNode = _
  unfold skeleton
  rw [List.map_flatMap, List.flatMap_map]
  congr 1
  funext p
  exact skProject_nodes p

theorem projectNodes_congr {p q : Project} (h : skProject p = skProject q) :
    (projectNodes p).map skNode = (projectNodes q).map skNode := by
  rw [skProject_nodes, skProject_nodes, h]

theorem allNodes_congr (h : skeleton ps = skeleton qs) :
    (allNodes ps).map skNode = (allNodes qs).map skNode := by
  rw [skeleton_nodes, skeleton_nodes, h]

theorem clusterNodes_congr {c d : Cluster} (h : skCluster c = skCluster d) :
    c.nodes.items.map skNode = d.nodes.items.map skNode :=
  (Prod.mk.inj h).2

theorem skCluster_mask (c : Cluster) : skCluster (maskCluster c) = skCluster c := by
  unfold skCluster maskCluster
  rw [items_of, List.map_map]
  rfl

theorem skProject_mask (p : Project) : skProject (maskProject p) = skProject p := by
  unfold skProject maskProject
  rw [items_of, List.map_map]
  simp only [Function.comp_def, skCluster_mask]

theorem shown_congr (h : skeleton ps = skeleton qs) (read : MaskedRead) :
    (shown ps read).map skNode = (shown qs read).map skNode := by
  have hproject (id : String) :
      (((projectByID ps id).map projectNodes).getD []).map skNode =
        (((projectByID qs id).map projectNodes).getD []).map skNode := by
    obtain ⟨hps, hqs⟩ | ⟨p, q, hp, hq, heq⟩ := option_map_eq (projectByID_skeleton h id)
    · rw [hps, hqs]
    · rw [hp, hq]
      exact projectNodes_congr heq
  cases read with
  | projectList => exact allNodes_congr h
  | project id | updateProject id req =>
    unfold shown
    dsimp only
    split
    · rfl
    · exact hproject id
  | node id =>
    unfold shown
    dsimp only
    split
    · rfl
    obtain ⟨hps, hqs⟩ | ⟨p, q, hp, hq, heq⟩ := option_map_eq (locateNode_skeleton h id)
    · rw [hps, hqs]
    · rw [hp, hq]
      exact congrArg (fun found => [found.2.2]) heq
  | updateCluster id req =>
    unfold shown
    dsimp only
    split
    · rfl
    obtain ⟨hps, hqs⟩ | ⟨⟨c, projectID⟩, ⟨d, projectID'⟩, hc, hd, heq⟩ :=
      option_map_eq (locateCluster_skeleton h id)
    · rw [hps, hqs]
    · rw [hc, hd]
      obtain ⟨hnodes, rfl⟩ := Prod.mk.inj heq
      have hsome := congrArg Option.isSome (clusterByIDs_skeleton h projectID id)
      rw [Option.isSome_map, Option.isSome_map] at hsome
      dsimp only
      rw [hsome]
      split
      · exact clusterNodes_congr hnodes
      · rfl
  | updateNode id req =>
    unfold shown
    dsimp only
    split
    · rfl
    obtain ⟨hps, hqs⟩ | ⟨⟨p, c, n⟩, ⟨p', c', n'⟩, hn, hn', heq⟩ :=
      option_map_eq (locateNode_skeleton h id)
    · rw [hps, hqs]
    · rw [hn, hn']
      obtain ⟨rfl, hrest⟩ := Prod.mk.inj heq
      obtain ⟨rfl, -⟩ := Prod.mk.inj hrest
      have hlookup := congrArg Option.toList (nodeByIDs_skeleton h p c id)
      rw [Option.toList_map, Option.toList_map] at hlookup
      exact hlookup

end Nodes

section Shown

variable {s : WorkspaceStore} {w : World} {file file' : File} {ps : Slice Project}

theorem skNode_readNode (n : Node) : skNode (Workspace.Places.readNode s n) = skNode n := by
  have hmask := congrArg skNode (blind_mask.readNode (s := s) n)
  exact hmask

theorem readAll_skeleton {back : Slice Project} (h : readAll s w file = .ok back) :
    ∃ ps, parse file = .ok ps ∧ skeleton back = skeleton ps := by
  rw [readAll_parse] at h
  cases hread : w.readError with
  | some err =>
    rw [hread] at h
    cases h
  | none =>
    rw [hread] at h
    change (parse file).map _ = _ at h
    cases hps : parse file with
    | error err =>
      rw [hps] at h
      cases h
    | ok ps =>
      rw [hps] at h
      cases h
      exact ⟨ps, rfl, skeleton_mapNodes skNode_readNode⟩

theorem readAll_zeros (hps : parse file = .ok ps) :
    ∃ back, readAll s zeros file = .ok back ∧ skeleton back = skeleton ps := by
  have hread : readAll s zeros file = (parse file).map (mapNodes (Workspace.Places.readNode s)) :=
    readAll_parse
  rw [hps] at hread
  obtain ⟨ps', hps', hskeleton⟩ := readAll_skeleton hread
  rw [hps] at hps'
  cases hps'
  exact ⟨_, hread, hskeleton⟩

theorem zeros_random : RandomWorks zeros := fun _ _ _ => ⟨_, rfl⟩

/-- An edit by id that keeps ids and DSNs, and succeeds where the id is found;
`masked` is what it does to masked nodes. -/
structure Steady (edit masked : Slice Project → Except String (Slice Project))
    (found : Slice Project → Bool) : Prop where
  mask : ∀ ps, masked (mapNodes maskNode ps) = (edit ps).map (mapNodes maskNode)
  keeps : ∀ ps next, masked ps = .ok next → skeleton next = skeleton ps
  ok_iff : ∀ ps, (∃ next, masked ps = .ok next) ↔ found ps = true
  congr : ∀ ps qs, skeleton ps = skeleton qs → found ps = found qs

theorem skeleton_mask : skeleton (mapNodes maskNode ps) = skeleton ps :=
  skeleton_mapNodes fun _ => rfl

theorem parse_exec (hkey : KeyFits s) (hw : RandomWorks w) {r : Request}
    {edit masked : Slice Project → Except String (Slice Project)}
    (hr : txn s w r = locked s w (onProjects edit))
    (hmask : ∀ ps, masked (mapNodes maskNode ps) = (edit ps).map (mapNodes maskNode))
    (hps : parse file = .ok ps) :
    ((txn s w r).exec file >>= seenBy maskNode) =
      written w masked (.ok (mapNodes maskNode ps)) := by
  rw [hr, exec_seenBy blind_mask hkey hw hmask]
  unfold seenBy
  rw [hps]
  rfl

/-- After an edit that succeeds, the file has the ids and DSNs it had before. -/
theorem Steady.exec {r : Request} {edit masked : Slice Project → Except String (Slice Project)}
    {found : Slice Project → Bool} (h : Steady edit masked found) (hkey : KeyFits s)
    (hw : RandomWorks w) (hr : txn s w r = locked s w (onProjects edit))
    (hexec : (txn s w r).exec file = .ok file') : ∃ ps qs, parse file = .ok ps ∧
      found ps = true ∧ parse file' = .ok qs ∧ skeleton qs = skeleton ps := by
  have hparse : ∃ ps, parse file = .ok ps := by
    rw [hr] at hexec
    obtain ⟨env, henv, -⟩ := bind_ok.mp hexec
    have hread : readAll s w file = .ok env.projects := bind_ok.mpr ⟨env, henv, rfl⟩
    obtain ⟨ps, hps, -⟩ := readAll_skeleton hread
    exact ⟨ps, hps⟩
  obtain ⟨ps, hps⟩ := hparse
  have hboth := parse_exec hkey hw hr h.mask hps
  rw [hexec] at hboth
  obtain ⟨env, rfl⟩ := Hosts.exec_envelope hexec
  obtain ⟨-, -, hboth⟩ := bind_ok.mp hboth.symm
  obtain ⟨ps', hps', hboth⟩ := bind_ok.mp hboth
  cases hps'
  obtain ⟨next, hnext, hboth⟩ := bind_ok.mp hboth
  obtain ⟨-, -, hboth⟩ := bind_ok.mp hboth
  have hfound := (h.ok_iff _).mp ⟨next, hnext⟩
  rw [h.congr _ _ skeleton_mask] at hfound
  refine ⟨ps, _, hps, hfound, rfl, ?_⟩
  calc skeleton (normalizeProjects env.projects)
      = skeleton (mapNodes maskNode (normalizeProjects env.projects)) := skeleton_mask.symm
    _ = skeleton (normalizeProjects next) := by rw [← Except.ok.inj hboth]
    _ = skeleton (mapNodes maskNode ps) := skeleton_normalize.trans (h.keeps _ _ hnext)
    _ = skeleton ps := skeleton_mask

theorem Steady.read_back {r : Request} {edit masked : Slice Project → Except String (Slice Project)}
    {found : Slice Project → Bool} (h : Steady edit masked found) (hkey : KeyFits s)
    (hw : RandomWorks w) (hr : txn s w r = locked s w (onProjects edit))
    (hexec : (txn s w r).exec file = .ok file') {w' : World} {back : Slice Project}
    (hback : readAll s w' file' = .ok back) :
    found back = true ∧ ∃ ps, parse file = .ok ps ∧ skeleton back = skeleton ps := by
  obtain ⟨ps, qs, hps, hfound, hqs, hsame⟩ := h.exec hkey hw hr hexec
  obtain ⟨qs', hqs', hskeleton⟩ := readAll_skeleton hback
  rw [hqs] at hqs'
  cases hqs'
  rw [h.congr back ps (hskeleton.trans hsame)]
  exact ⟨hfound, ps, hps, hskeleton.trans hsame⟩

theorem Steady.exec_zeros {r : Request}
    {edit masked : Slice Project → Except String (Slice Project)} {found : Slice Project → Bool}
    (h : Steady edit masked found) (hkey : KeyFits s)
    (hr : txn s zeros r = locked s zeros (onProjects edit)) (hps : parse file = .ok ps)
    (hfound : found ps = true) : ∃ file', (txn s zeros r).exec file = .ok file' := by
  have hskeleton : skeleton (mapNodes maskNode ps) = skeleton ps := skeleton_mask
  rw [← h.congr _ _ hskeleton] at hfound
  obtain ⟨next, hnext⟩ := (h.ok_iff _).mpr hfound
  have hboth := parse_exec hkey zeros_random hr h.mask hps
  have hwritten : written zeros masked (.ok (mapNodes maskNode ps)) =
      .ok (normalizeProjects next) := by
    unfold written
    change (masked (mapNodes maskNode ps) >>= _) = _
    rw [hnext]
    rfl
  rw [hwritten] at hboth
  exact (bind_ok.mp hboth).imp fun _ h => h.1

theorem steady_project (id : String) (req : ProjectUpdateRequest) :
    Steady (updateProject id fun p => .ok (req.patch p))
      (updateProject id fun p => .ok (req.patch p)) fun ps => (projectByID ps id).isSome where
  mask := fun ps => updateProject_mapNodes _ fun _ => rfl
  keeps := by
    intro ps next hnext
    apply editById_keeps _ hnext
    intro p q hq
    cases hq
    rfl
  ok_iff := fun ps => updateProject_ok_iff req.patch
  congr := by
    intro ps qs h
    rw [← Option.isSome_map, projectByID_skeleton h, Option.isSome_map]

theorem steady_cluster (projectID id : String) (req : ClusterUpdateRequest) :
    Steady (updateCluster projectID id fun c => .ok (req.patch c))
      (updateCluster projectID id fun c => .ok (req.patch c)) fun ps =>
      (clusterByIDs ps projectID id).isSome where
  mask := fun ps => updateCluster_mapNodes _ fun _ => rfl
  keeps := by
    intro ps next hnext
    apply editById_keeps _ hnext
    intro p q hq
    apply skCluster_keeps _ hq
    intro c d hd
    cases hd
    rfl
  ok_iff := fun ps => updateCluster_ok_iff req.patch
  congr := by
    intro ps qs h
    rw [← Option.isSome_map, clusterByIDs_skeleton h, Option.isSome_map]

theorem steady_node (projectID clusterID id : String) (req : NodeUpdateRequest) :
    Steady (updateNode projectID clusterID id fun n => .ok (req.patch n))
      (updateNode projectID clusterID id fun n => .ok (maskNode (req.patch n))) fun ps =>
      (nodeByIDs ps projectID clusterID id).isSome where
  mask := fun ps => updateNode_mapNodes _ (fun _ => rfl) fun _ => rfl
  keeps := by
    intro ps next hnext
    apply editById_keeps _ hnext
    intro p q hq
    apply skCluster_keeps _ hq
    intro c d hd
    apply skNode_keeps _ hd
    intro n m hm
    cases hm
    rfl
  ok_iff := fun ps => updateNode_ok_iff fun n => maskNode (req.patch n)
  congr := by
    intro ps qs h
    rw [← Option.isSome_map, nodeByIDs_skeleton h, Option.isSome_map]

end Shown

section Answer

variable {s : WorkspaceStore} {w : World} {file : File} {ps : Slice Project}

section Shows

variable {w : Nat → World} {body : Body}

theorem updateProject_shows {id : String} {req : ProjectUpdateRequest} (hkey : KeyFits s)
    (hw : ∀ i, RandomWorks (w i)) (h : (serveProjectUpdate s w id req file).2 = .ok body) :
    ∃ ps, parse file = .ok ps ∧
      (bodyNodes body).map skNode = (shown ps (.updateProject id req)).map skNode := by
  unfold serveProjectUpdate at h
  split at h
  · cases h
  next hid =>
    obtain ⟨file', hexec, h⟩ := store_ok h
    cases hfound : getProject s (w 1) file' id with
    | error err =>
      rw [hfound] at h
      cases h
    | ok found =>
      obtain ⟨back, hback, rfl⟩ := map_ok hfound
      rw [hfound] at h
      obtain ⟨-, ps, hps, hsame⟩ :=
        (steady_project id req).read_back hkey (hw 0) rfl hexec hback
      refine ⟨ps, hps, Eq.trans ?_ (shown_congr hsame _)⟩
      unfold shown
      dsimp only
      rw [if_neg hid]
      cases hp : projectByID back id with
      | none =>
        rw [hp] at h
        cases h
      | some p =>
        rw [hp] at h
        cases h
        exact projectNodes_congr (skProject_mask p)

theorem updateCluster_shows {id : String} {req : ClusterUpdateRequest} (hkey : KeyFits s)
    (hw : ∀ i, RandomWorks (w i)) (h : (serveClusterUpdate s w id req file).2 = .ok body) :
    ∃ ps, parse file = .ok ps ∧
      (bodyNodes body).map skNode = (shown ps (.updateCluster id req)).map skNode := by
  unfold serveClusterUpdate at h
  split at h
  · cases h
  next hid =>
    cases hfirst : findClusterByID s (w 0) file id with
    | error err =>
      rw [hfirst] at h
      cases h
    | ok first =>
      obtain ⟨c, projectID⟩ := first
      obtain ⟨back, hback, hlocate⟩ := findClusterByID_ok hfirst
      rw [hfirst] at h
      obtain ⟨file', hexec, h⟩ := store_ok h
      cases hfound : findClusterByID s (w 2) file' id with
      | error err =>
        rw [hfound] at h
        cases h
      | ok found =>
        obtain ⟨d, projectID'⟩ := found
        rw [hfound] at h
        cases h
        obtain ⟨back', hback', hlocate'⟩ := findClusterByID_ok hfound
        obtain ⟨hsome, ps, hps, hsame⟩ :=
          (steady_cluster projectID id req).read_back hkey (hw 1) rfl hexec hback'
        obtain ⟨ps', hps', hskeleton⟩ := readAll_skeleton hback
        rw [hps] at hps'
        cases hps'
        have hid' := locateCluster_skeleton (hskeleton.trans hsame.symm) id
        rw [hlocate, hlocate'] at hid'
        obtain ⟨-, rfl⟩ := Prod.mk.inj (Option.some.inj hid')
        refine ⟨ps, hps, Eq.trans ?_ (shown_congr hsame _)⟩
        unfold shown
        dsimp only
        rw [if_neg hid, hlocate']
        dsimp only
        rw [if_pos hsome]
        exact clusterNodes_congr (skCluster_mask d)

theorem updateNode_shows {id : String} {req : NodeUpdateRequest} (hkey : KeyFits s)
    (hw : ∀ i, RandomWorks (w i)) (h : (serveNodeUpdate s w id req file).2 = .ok body) :
    ∃ ps, parse file = .ok ps ∧
      (bodyNodes body).map skNode = (shown ps (.updateNode id req)).map skNode := by
  unfold serveNodeUpdate at h
  cases hfirst : findNode s (w 0) file id with
  | error err =>
    rw [hfirst] at h
    cases h
  | ok first =>
    obtain ⟨projectID, clusterID, n⟩ := first
    obtain ⟨hid, back, hback, hlocate⟩ := findNode_ok hfirst
    rw [hfirst] at h
    obtain ⟨file', hexec, h⟩ := store_ok h
    cases hfound : getNode s (w 2) file' projectID clusterID id with
    | error err =>
      rw [hfound] at h
      cases h
    | ok found =>
      obtain ⟨back', hback', rfl⟩ := map_ok hfound
      rw [hfound] at h
      obtain ⟨-, ps, hps, hsame⟩ :=
        (steady_node projectID clusterID id req).read_back hkey (hw 1) rfl hexec hback'
      obtain ⟨ps', hps', hskeleton⟩ := readAll_skeleton hback
      rw [hps] at hps'
      cases hps'
      have hid' := locateNode_skeleton (hskeleton.trans hsame.symm) id
      rw [hlocate] at hid'
      obtain ⟨⟨projectID', clusterID', n'⟩, hlocate', heq⟩ :=
        Option.map_eq_some_iff.mp hid'.symm
      obtain ⟨rfl, hrest⟩ := Prod.mk.inj heq
      obtain ⟨rfl, -⟩ := Prod.mk.inj hrest
      refine ⟨ps, hps, Eq.trans ?_ (shown_congr hsame _)⟩
      unfold shown
      dsimp only
      rw [if_neg hid, hlocate']
      dsimp only
      cases hnode : nodeByIDs back' projectID' clusterID' id with
      | none =>
        rw [hnode] at h
        cases h
      | some m =>
        rw [hnode] at h
        cases h
        rfl

/-- A masked response shows the ids and DSNs of the nodes that `shown` says. -/
theorem respondMasked_shows {read : MaskedRead} (hkey : KeyFits s)
    (hw : ∀ i, RandomWorks (w i)) (h : respondMasked s w file read = .ok body) :
    ∃ ps, parse file = .ok ps ∧ (bodyNodes body).map skNode = (shown ps read).map skNode := by
  have hread {w : World} {back : Slice Project} (hback : readAll s w file = .ok back)
      (hbody : (bodyNodes body).map skNode = (shown back read).map skNode) :
      ∃ ps, parse file = .ok ps ∧ (bodyNodes body).map skNode = (shown ps read).map skNode := by
    obtain ⟨ps, hps, hskeleton⟩ := readAll_skeleton hback
    exact ⟨ps, hps, hbody.trans (shown_congr hskeleton read)⟩
  cases read with
  | projectList =>
    unfold respondMasked serveProjectList at h
    dsimp only at h
    cases hback : readAll s (w 0) file with
    | error err =>
      rw [hback] at h
      cases h
    | ok back =>
      rw [hback] at h
      cases h
      apply hread hback
      apply allNodes_congr
      unfold skeleton
      rw [items_of, List.map_map]
      exact List.map_congr_left fun p _ => skProject_mask p
  | project id =>
    unfold respondMasked serveProjectGet at h
    dsimp only at h
    split at h
    · cases h
    next hid =>
      cases hfound : getProject s (w 0) file id with
      | error err =>
        rw [hfound] at h
        cases h
      | ok found =>
        obtain ⟨back, hback, rfl⟩ := map_ok hfound
        rw [hfound] at h
        apply hread hback
        unfold shown
        dsimp only
        rw [if_neg hid]
        cases hp : projectByID back id with
        | none =>
          rw [hp] at h
          cases h
        | some p =>
          rw [hp] at h
          cases h
          exact projectNodes_congr (skProject_mask p)
  | node id =>
    obtain ⟨found, hfound, rfl⟩ := map_ok h
    obtain ⟨hid, back, hback, hlocate⟩ := findNode_ok hfound
    apply hread hback
    unfold shown
    dsimp only
    rw [if_neg hid, hlocate]
    rfl
  | updateProject id req => exact updateProject_shows hkey hw h
  | updateCluster id req => exact updateCluster_shows hkey hw h
  | updateNode id req => exact updateNode_shows hkey hw h

end Shows

theorem getProject_zeros (hps : parse file = .ok ps) {id : String}
    (hsome : (projectByID ps id).isSome) : ∃ p, getProject s zeros file id = .ok (some p) := by
  obtain ⟨back, hback, hskeleton⟩ := readAll_zeros (s := s) hps
  rw [← Option.isSome_map, ← projectByID_skeleton hskeleton, Option.isSome_map] at hsome
  obtain ⟨p, hp⟩ := Option.isSome_iff_exists.mp hsome
  unfold getProject
  rw [hback]
  exact ⟨p, congrArg Except.ok hp⟩

theorem getNode_zeros (hps : parse file = .ok ps) {projectID clusterID id : String}
    (hsome : (nodeByIDs ps projectID clusterID id).isSome) :
    ∃ n, getNode s zeros file projectID clusterID id = .ok (some n) := by
  obtain ⟨back, hback, hskeleton⟩ := readAll_zeros (s := s) hps
  rw [← Option.isSome_map, ← nodeByIDs_skeleton hskeleton, Option.isSome_map] at hsome
  obtain ⟨n, hn⟩ := Option.isSome_iff_exists.mp hsome
  unfold getNode
  rw [hback]
  exact ⟨n, congrArg Except.ok hn⟩

theorem findClusterByID_zeros (hps : parse file = .ok ps) {id projectID : String} {c : Cluster}
    (hlocate : locateCluster ps id = some (c, projectID)) :
    ∃ d, findClusterByID s zeros file id = .ok (d, projectID) := by
  obtain ⟨back, hback, hskeleton⟩ := readAll_zeros (s := s) hps
  have hid := locateCluster_skeleton hskeleton id
  rw [hlocate] at hid
  obtain ⟨⟨d, projectID'⟩, hd, heq⟩ := Option.map_eq_some_iff.mp hid
  obtain ⟨-, rfl⟩ := Prod.mk.inj heq
  refine ⟨d, ?_⟩
  unfold findClusterByID
  rw [hback]
  dsimp only
  rw [hd]

theorem findNode_zeros (hps : parse file = .ok ps) {id projectID clusterID : String} {n : Node}
    (hid : id ≠ "") (hlocate : locateNode ps id = some (projectID, clusterID, n)) :
    ∃ m, findNode s zeros file id = .ok (projectID, clusterID, m) := by
  obtain ⟨back, hback, hskeleton⟩ := readAll_zeros (s := s) hps
  have hsame := locateNode_skeleton hskeleton id
  rw [hlocate] at hsame
  obtain ⟨⟨projectID', clusterID', m⟩, hm, heq⟩ := Option.map_eq_some_iff.mp hsame
  obtain ⟨rfl, hrest⟩ := Prod.mk.inj heq
  obtain ⟨rfl, -⟩ := Prod.mk.inj hrest
  refine ⟨m, ?_⟩
  unfold findNode
  rw [if_neg hid, hback]
  dsimp only
  rw [hm]

theorem store_zeros {r : Request} {edit masked : Slice Project → Except String (Slice Project)}
    {found : Slice Project → Bool} (h : Steady edit masked found) (hkey : KeyFits s)
    (hr : txn s zeros r = locked s zeros (onProjects edit)) (hps : parse file = .ok ps)
    (hfound : found ps = true) {status : Nat} {next : File → Except ApiError Body}
    (hnext : ∀ file' qs, parse file' = .ok qs → skeleton qs = skeleton ps →
      ∃ body, next file' = .ok body) :
    ∃ body, (store s zeros r status file next).2 = .ok body := by
  obtain ⟨file', hexec⟩ := h.exec_zeros hkey hr hps hfound
  obtain ⟨ps', qs, hps', -, hqs, hsame⟩ := h.exec hkey zeros_random hr hexec
  rw [hps] at hps'
  cases hps'
  obtain ⟨body, hbody⟩ := hnext file' qs hqs hsame
  refine ⟨body, ?_⟩
  unfold store
  rw [hexec]
  exact hbody

theorem updateProject_zeros {id : String} {req : ProjectUpdateRequest} (hkey : KeyFits s)
    (hps : parse file = .ok ps) (hshown : shown ps (.updateProject id req) ≠ []) :
    ∃ body, (serveProjectUpdate s (fun _ => zeros) id req file).2 = .ok body := by
  unfold shown at hshown
  dsimp only at hshown
  split at hshown
  · exact absurd rfl hshown
  next hid =>
    cases hp : projectByID ps id with
    | none =>
      rw [hp] at hshown
      exact absurd rfl hshown
    | some p =>
      have hsome : (projectByID ps id).isSome := Option.isSome_of_eq_some hp
      unfold serveProjectUpdate
      rw [if_neg hid]
      apply store_zeros (steady_project id req) hkey rfl hps hsome
      intro file' qs hqs hsame
      rw [← (steady_project id req).congr qs ps hsame] at hsome
      obtain ⟨q, hq⟩ := getProject_zeros (s := s) hqs hsome
      rw [hq]
      exact ⟨_, rfl⟩

theorem updateCluster_zeros {id : String} {req : ClusterUpdateRequest} (hkey : KeyFits s)
    (hps : parse file = .ok ps) (hshown : shown ps (.updateCluster id req) ≠ []) :
    ∃ body, (serveClusterUpdate s (fun _ => zeros) id req file).2 = .ok body := by
  unfold shown at hshown
  dsimp only at hshown
  split at hshown
  · exact absurd rfl hshown
  next hid =>
    cases hlocate : locateCluster ps id with
    | none =>
      rw [hlocate] at hshown
      exact absurd rfl hshown
    | some found =>
      obtain ⟨c, projectID⟩ := found
      rw [hlocate] at hshown
      dsimp only at hshown
      split at hshown
      case isFalse => exact absurd rfl hshown
      next hsome =>
        obtain ⟨d, hd⟩ := findClusterByID_zeros (s := s) hps hlocate
        unfold serveClusterUpdate
        rw [if_neg hid, hd]
        apply store_zeros (steady_cluster projectID id req) hkey rfl hps hsome
        intro file' qs hqs hsame
        have hlocate' := locateCluster_skeleton hsame id
        rw [hlocate] at hlocate'
        obtain ⟨⟨c', projectID'⟩, hc', -⟩ := Option.map_eq_some_iff.mp hlocate'
        obtain ⟨d', hd'⟩ := findClusterByID_zeros (s := s) hqs hc'
        rw [hd']
        exact ⟨_, rfl⟩

theorem updateNode_zeros {id : String} {req : NodeUpdateRequest} (hkey : KeyFits s)
    (hps : parse file = .ok ps) (hshown : shown ps (.updateNode id req) ≠ []) :
    ∃ body, (serveNodeUpdate s (fun _ => zeros) id req file).2 = .ok body := by
  unfold shown at hshown
  dsimp only at hshown
  split at hshown
  · exact absurd rfl hshown
  next hid =>
    cases hlocate : locateNode ps id with
    | none =>
      rw [hlocate] at hshown
      exact absurd rfl hshown
    | some found =>
      obtain ⟨projectID, clusterID, n⟩ := found
      rw [hlocate] at hshown
      have hsome : (nodeByIDs ps projectID clusterID id).isSome := by
        cases hn : nodeByIDs ps projectID clusterID id with
        | none =>
          dsimp only at hshown
          rw [hn] at hshown
          exact absurd rfl hshown
        | some n => rfl
      obtain ⟨m, hm⟩ := findNode_zeros (s := s) hps hid hlocate
      unfold serveNodeUpdate
      rw [hm]
      apply store_zeros (steady_node projectID clusterID id req) hkey rfl hps hsome
      intro file' qs hqs hsame
      rw [← (steady_node projectID clusterID id req).congr qs ps hsame] at hsome
      obtain ⟨m', hm'⟩ := getNode_zeros (s := s) hqs hsome
      rw [hm']
      exact ⟨_, rfl⟩

theorem respondMasked_zeros (hkey : KeyFits s) (hps : parse file = .ok ps) {read : MaskedRead}
    (hshown : shown ps read ≠ []) :
    ∃ body, respondMasked s (fun _ => zeros) file read = .ok body := by
  cases read with
  | projectList =>
    obtain ⟨back, hback, -⟩ := readAll_zeros (s := s) hps
    unfold respondMasked serveProjectList
    dsimp only
    rw [hback]
    exact ⟨_, rfl⟩
  | project id =>
    unfold shown at hshown
    dsimp only at hshown
    split at hshown
    · exact absurd rfl hshown
    next hid =>
      cases hp : projectByID ps id with
      | none =>
        rw [hp] at hshown
        exact absurd rfl hshown
      | some p =>
        obtain ⟨q, hq⟩ := getProject_zeros (s := s) hps (Option.isSome_of_eq_some hp)
        unfold respondMasked serveProjectGet
        dsimp only
        rw [if_neg hid, hq]
        exact ⟨_, rfl⟩
  | node id =>
    unfold shown at hshown
    dsimp only at hshown
    split at hshown
    · exact absurd rfl hshown
    next hid =>
      cases hlocate : locateNode ps id with
      | none =>
        rw [hlocate] at hshown
        exact absurd rfl hshown
      | some found =>
        obtain ⟨m, hm⟩ := findNode_zeros (s := s) hps hid hlocate
        unfold respondMasked serveNodeGet
        dsimp only
        rw [hm]
        exact ⟨_, rfl⟩
  | updateProject id req => exact updateProject_zeros hkey hps hshown
  | updateCluster id req => exact updateCluster_zeros hkey hps hshown
  | updateNode id req => exact updateNode_zeros hkey hps hshown

end Answer

section Same

variable {s : WorkspaceStore} {file file' : File} {f g : Node → Node}

theorem mapFile_mapFile : mapFile f (mapFile g file) = mapFile (fun n => f (g n)) file := by
  cases file with
  | missing | blank | malformed => rfl
  | legacy projects => exact congrArg File.legacy mapNodes_mapNodes
  | envelope env =>
    unfold mapFile
    dsimp only
    rw [mapNodes_mapNodes]

theorem same_mapFile (hg : ∀ n, blankNode (g n) = blankNode n) :
    SameButPasswords file (mapFile g file) := by
  unfold SameButPasswords
  rw [mapFile_mapFile]
  simp only [hg]

theorem seenBy_onDsn (δ : String → String) (hg : ∀ n, maskNode (g n) = veil δ n) :
    seenBy maskNode (mapFile g file) = seenBy (veil δ) file := by
  unfold seenBy
  rw [parse_mapFile, map_map]
  simp only [mapNodes_mapNodes, hg]

theorem setPassword_blank {password : List Char}
    (hpassword : ∀ c ∈ password, (!endsAuthority c) = true) (n : Node) :
    blankNode (onDsn (setPassword password) n) = blankNode n := by
  unfold blankNode onDsn
  dsimp only
  rw [setPassword_setPassword hpassword]

theorem masked_same_iff (hkey : KeyFits s) (file : File) (read : MaskedRead) :
    (∀ w file', (∀ i, RandomWorks (w i)) → SameButPasswords file file' →
        respondMasked s w file' read = respondMasked s w file read) ↔
      ∀ ps, parse file = .ok ps → ∀ n ∈ shown ps read, dsnPassword n.dsn = none := by
  constructor
  · intro hsame ps hps n hn
    obtain ⟨body, hbody⟩ := respondMasked_zeros hkey hps (List.ne_nil_of_mem hn)
    obtain ⟨ps', hps', hnodes⟩ := respondMasked_shows hkey (fun _ => zeros_random) hbody
    rw [hps] at hps'
    cases hps'
    have hbodies (c : Char) (hc : (!endsAuthority c) = true) :
        body = body.mapNodes (onDsn (setPassword [c])) := by
      have hpassword : ∀ d ∈ [c], (!endsAuthority d) = true := by
        intro d hd
        rw [List.mem_singleton.mp hd]
        exact hc
      have hdsn := hsame (fun _ => zeros) _ (fun _ => zeros_random)
        (same_mapFile (setPassword_blank hpassword))
      have hseen : seenBy maskNode (mapFile (onDsn (setPassword [c])) file) =
          seenBy (veil (setPassword [c])) file := seenBy_onDsn (setPassword [c]) fun _ => rfl
      rw [respondMasked_veil hkey (fun _ => zeros_random) hseen, hbody] at hdsn
      exact (Except.ok.inj hdsn).symm
    have hmem : skNode n ∈ (bodyNodes body).map skNode := by
      rw [hnodes]
      exact List.mem_map_of_mem hn
    obtain ⟨m, hm, heq⟩ := List.mem_map.mp hmem
    rw [← show m.dsn = n.dsn from (Prod.mk.inj heq).2]
    have hdsn (c : Char) (hc : (!endsAuthority c) = true) : setPassword [c] m.dsn = m.dsn := by
      have hfixed := body_nodes_fixed (hbodies c hc).symm m hm
      exact congrArg Node.dsn hfixed
    by_contra hpassword
    have hchars := setPassword_injective hpassword
      ((hdsn 'a' (by decide)).trans (hdsn 'b' (by decide)).symm)
    revert hchars
    decide
  · intro hnone w file' hw hsame
    have hblank (f : File) : respondMasked s w (mapFile blankNode f) read =
        (respondMasked s w f read).map (Body.mapNodes (onDsn (setPassword []))) :=
      respondMasked_veil hkey hw (seenBy_onDsn _ fun _ => rfl) read
    have hboth := hblank file'
    rw [← hsame, hblank file] at hboth
    obtain ⟨err, herr, herr'⟩ | ⟨body, body', hbody, hbody', heq⟩ := except_map_eq hboth
    · rw [herr', herr]
    obtain ⟨ps, hps, hnodes⟩ := respondMasked_shows hkey hw hbody
    have hplain : ∀ n ∈ bodyNodes body, dsnPassword n.dsn = none := by
      intro n hn
      have hmem : skNode n ∈ (shown ps read).map skNode := by
        rw [← hnodes]
        exact List.mem_map_of_mem hn
      obtain ⟨m, hm, hskeleton⟩ := List.mem_map.mp hmem
      rw [← show m.dsn = n.dsn from (Prod.mk.inj hskeleton).2]
      exact hnone ps hps m hm
    have hfixed : body.mapNodes (onDsn (setPassword [])) = body := by
      apply body_fixed
      intro n hn
      unfold onDsn
      rw [setPassword_of_none (hplain n hn)]
    have hfixed' : body'.mapNodes (onDsn (setPassword [])) = body' := by
      apply body_fixed
      intro n hn
      have hmem : onDsn (setPassword []) n ∈ bodyNodes body := by
        rw [← hfixed, heq, bodyNodes_map]
        exact List.mem_map_of_mem hn
      have hset := hplain _ hmem
      rw [onDsn_dsn] at hset
      have hdsn := eq_of_setPassword hset rfl
      unfold onDsn
      rw [← hdsn]
    rw [hbody, hbody', ← hfixed, ← hfixed', heq]

theorem mapFile_empty (h : ∀ ps, parse file = .ok ps → allNodes ps = []) :
    mapFile f file = file := by
  have hfixed {ps : Slice Project} (hps : allNodes ps = []) : mapNodes f ps = ps := by
    apply mapNodes_fixed
    rw [hps]
    exact nofun
  cases file with
  | missing | blank | malformed => rfl
  | legacy projects => exact congrArg File.legacy (hfixed (allNodes_normalize.symm.trans (h _ rfl)))
  | envelope env =>
    unfold mapFile
    dsimp only
    rw [hfixed (allNodes_normalize.symm.trans (h _ rfl))]

theorem snapshot_same_iff (s : WorkspaceStore) (file : File) :
    (∀ (w : Nat → World) file', (∀ i, RandomWorks (w i)) → SameButPasswords file file' →
        serveWorkspaceProjects s (w 0) file' = serveWorkspaceProjects s (w 0) file) ↔
      ∀ ps, parse file = .ok ps → allNodes ps = [] := by
  constructor
  · intro hsame ps hps
    have hread (file : File) {ps : Slice Project} (hps : parse file = .ok ps) :
        ∃ version, serveWorkspaceProjects s zeros file =
          .ok (.snapshot version (mapNodes (Workspace.Places.readNode s) ps)) := by
      have hparse : (readEnvelopeNoLock s zeros file).map (·.projects) =
          (parse file).map (mapNodes (Workspace.Places.readNode s)) := readEnvelope_parse
      rw [hps] at hparse
      obtain ⟨env, henv, hprojects⟩ := map_ok hparse
      refine ⟨env.schemaVersion, ?_⟩
      unfold serveWorkspaceProjects
      rw [henv, ← hprojects]
    have hset (password : String) (hplain : isEncrypted password = false) :
        (allNodes ps).map (fun n => { n with password }) =
          (allNodes ps).map (Workspace.Places.readNode s) := by
      have hparse : parse (mapFile (fun n => { n with password }) file) =
          .ok (mapNodes (fun n => { n with password }) ps) := by
        rw [parse_mapFile, hps]
        rfl
      obtain ⟨version', hanswer'⟩ := hread _ hparse
      obtain ⟨version, hanswer⟩ := hread file hps
      have hequal := hsame (fun _ => zeros) _ (fun _ => zeros_random)
        (same_mapFile (g := fun n => { n with password }) fun _ => rfl)
      rw [hanswer, hanswer'] at hequal
      have hprojects := congrArg bodyNodes (Except.ok.inj hequal)
      change allNodes _ = allNodes _ at hprojects
      rw [allNodes_map, allNodes_map, allNodes_map, List.map_map] at hprojects
      rw [← hprojects]
      exact List.map_congr_left fun n _ => (readNode_plain hplain).symm
    have hequal := (hset "a" (by decide)).trans (hset "b" (by decide)).symm
    cases hnodes : allNodes ps with
    | nil => rfl
    | cons n rest =>
      rw [hnodes] at hequal
      have hpassword : "a" = "b" := congrArg Node.password (List.cons.inj hequal).1
      exact absurd hpassword (by decide)
  · intro hempty w file' hw hsame
    have hempty' : ∀ ps, parse file' = .ok ps → allNodes ps = [] := by
      intro ps' hps'
      have hparse := congrArg parse hsame
      rw [mapFile_empty hempty, parse_mapFile, hps'] at hparse
      have hnodes := hempty _ hparse
      rw [allNodes_map] at hnodes
      exact List.map_eq_nil_iff.mp hnodes
    have heq : file = file' :=
      (mapFile_empty hempty).symm.trans (hsame.trans (mapFile_empty hempty'))
    rw [heq]

theorem create_same (hkey : KeyFits s) {w : Nat → World} (hw : ∀ i, RandomWorks (w i))
    (hsame : SameButPasswords file file') (create : Create) :
    respondCreate s w file' create = respondCreate s w file create := by
  have hid : ∀ n, (blankNode n).id = n.id := fun _ => rfl
  have hblank (f : File) : respondCreate s w (mapFile blankNode f) create =
      respondCreate s w f create :=
    respondCreate_mapFile hkey hw hid create f
  rw [← hblank file', ← hsame, hblank file]

/-- The passwords in a workspace have no influence on a response exactly when it
shows no node whose DSN has one, and is not a snapshot of a workspace with nodes. -/
theorem respond_same_iff (hkey : KeyFits s) (file : File) (read : Read) :
    (∀ w file', (∀ i, RandomWorks (w i)) → SameButPasswords file file' →
        respond s w file' read = respond s w file read) ↔ NothingShown file read := by
  cases read with
  | workspaceProjects => exact snapshot_same_iff s file
  | masked read => exact masked_same_iff hkey file read
  | create create =>
    exact iff_of_true (fun w file' hw hsame => create_same hkey hw hsame create) trivial

end Same

theorem respond_same_oneNode :
    (∀ w file', (∀ i, RandomWorks (w i)) → SameButPasswords (.envelope (oneNode "")) file' →
        respond zeroStore w file' (.masked .projectList) =
          respond zeroStore w (.envelope (oneNode "")) (.masked .projectList)) ↔
      NothingShown (.envelope (oneNode "")) (.masked .projectList) := by
  have hkey : KeyFits zeroStore := by
    intro key hkey
    cases hkey
    rfl
  exact respond_same_iff hkey (.envelope (oneNode "")) (.masked .projectList)

/-- The snapshot of the workspace and the list of an imported node show passwords. -/
theorem snapshot_shows_password :
    ¬ ∀ (s : WorkspaceStore) (w : Nat → World) (file file' : File) (read : Read),
      KeyFits s → (∀ i, RandomWorks (w i)) → SameButPasswords file file' →
      respond s w file' read = respond s w file read := by
  intro h
  have hkey : KeyFits plainStore := nofun
  have hsame := h plainStore (fun _ => zeros) (.envelope (oneNode ""))
    (mapFile (fun n => { n with password := "x" }) (.envelope (oneNode ""))) .workspaceProjects
    hkey (fun _ => zeros_random) (same_mapFile fun _ => rfl)
  revert hsame
  decide

end LearnPg.Api.Passwords
