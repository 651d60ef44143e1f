import LearnPg.Api.Following
import LearnPg.Api.Statuses

/-! The clients that inspections and `GetActive` hand out stay connected to what
the workspace stores. -/
namespace LearnPg.Api.Following

open Connection Workspace.Data Workspace.Secrets Workspace.Store Workspace.Places
  Workspace.Edits Workspace.Writes Workspace.AtRest Activation LearnPg.Basis.Runs

section Manager

variable {s : WorkspaceStore} {file file' : File} {m m' : Connection.State} {cfg : Config}
  {k nodeID : String} {client : Nat} {w : World} {n : Node}

theorem Matched.mono (h : Matched s file m) (hconns : m'.conns = m.conns)
    (hopened : m'.opened = m.opened)
    (hagrees : ∀ k client cfg, m.conns.lookup k = some client → m.opened[client]? = some cfg →
      Agrees s (viewOf s file) cfg k → Agrees s (viewOf s file') cfg k) :
    Matched s file' m' := by
  intro k client hclient
  rw [hconns] at hclient
  obtain ⟨cfg, hcfg, hview⟩ := h k client hclient
  rw [hopened]
  exact ⟨cfg, hcfg, hagrees k client cfg hclient hcfg hview⟩

theorem Matched.removed {old : List Node} (h : Matched s file m)
    (hr : Rewrites s old [] file file')
    (hleft : ∀ k ∈ m.conns, (∃ n ∈ old, n.id = k) →
      old.countP (·.id = k) < (viewOf s file).countP (·.id = k)) : Matched s file' m := by
  apply h.mono rfl rfl
  intro k client cfg hclient hcfg hview
  apply hview.rewrites hr (List.forall_mem_nil _)
  intro hk
  rw [List.countP_nil, Nat.add_zero]
  by_cases hin : ∃ n ∈ old, n.id = k
  · exact hleft k (Finmap.mem_of_lookup_eq_some hclient) hin
  · have hnone : old.countP (·.id = k) = 0 := by
      apply List.countP_eq_zero.mpr
      intro n hn heq
      exact hin ⟨n, hn, by simpa using heq⟩
    rw [hnone]
    exact hview.countP_pos hk

theorem Matched.connect (h : Matched s file m) (hagrees : Agrees s (viewOf s file) cfg nodeID)
    (hconns : m'.conns = m.conns.insert nodeID m.opened.length)
    (hopened : m'.opened = m.opened ++ [cfg]) : Matched s file m' := by
  intro k client hclient
  rw [hconns] at hclient
  rw [hopened]
  by_cases hk : k = nodeID
  · rw [hk, Finmap.lookup_insert] at hclient
    cases hclient
    refine ⟨cfg, ?_, hk ▸ hagrees⟩
    exact List.getElem?_concat_length
  · rw [Finmap.lookup_insert_of_ne _ hk] at hclient
    obtain ⟨cfg', hcfg, hview⟩ := h k client hclient
    obtain ⟨hless, -⟩ := List.getElem?_eq_some_iff.mp hcfg
    exact ⟨cfg', (List.getElem?_append_left hless).trans hcfg, hview⟩

theorem Matched.deactivate (h : Matched s file m) : Matched s file (m.deactivate nodeID) := by
  intro k client hclient
  change (m.closeConn nodeID).conns.lookup k = some client at hclient
  change ∃ cfg, (m.closeConn nodeID).opened[client]? = some cfg ∧ _
  rw [lookup_closeConn] at hclient
  rw [opened_closeConn]
  split at hclient
  · cases hclient
  · exact h k client hclient

theorem get_ok (h : m.get nodeID = .ok client) : m.conns.lookup nodeID = some client := by
  unfold State.get at h
  split at h
  next hconn =>
    cases h
    exact hconn
  next => cases h

theorem Uniform.agrees (h : Uniform s (viewOf s file) nodeID) (hn : n ∈ viewOf s file)
    (hid : n.id = nodeID) : Agrees s (viewOf s file) (nodeConfig n) nodeID where
  config := fun m hm hmid => ⟨(h m hm hmid).2 n hn hid, (h m hm hmid).1⟩
  present := fun _ => ⟨n, hn, hid⟩

theorem locateNode_mem {projects : Slice Project} {projectID clusterID : String}
    (h : locateNode projects nodeID = some (projectID, clusterID, n)) :
    n ∈ allNodes projects ∧ n.id = nodeID := by
  obtain ⟨p, hp, h⟩ := List.exists_of_findSome?_eq_some h
  obtain ⟨c, hc, h⟩ := List.exists_of_findSome?_eq_some h
  obtain ⟨n', hn, heq⟩ := Option.map_eq_some_iff.mp h
  cases heq
  refine ⟨?_, by simpa using List.find?_some hn⟩
  exact List.mem_flatMap.mpr ⟨p, hp, List.mem_flatMap.mpr ⟨c, hc, List.mem_of_find?_eq_some hn⟩⟩

theorem findNode_mem {projectID clusterID : String}
    (h : findNode s w file nodeID = .ok (projectID, clusterID, n)) :
    n ∈ viewOf s file ∧ n.id = nodeID := by
  obtain ⟨-, projects, hread, hlocate⟩ := findNode_ok h
  rw [← view_of_read hread]
  exact locateNode_mem hlocate

theorem inspectedNode_mem (h : inspectedNode s w file nodeID = some n) :
    n ∈ viewOf s file ∧ n.id = nodeID ∧ nodeID ≠ "" := by
  unfold inspectedNode at h
  cases hread : readAll s w file with
  | error err =>
    rw [hread] at h
    cases h
  | ok projects =>
    rw [hread] at h
    obtain ⟨hlast, hid⟩ := Option.filter_eq_some_iff.mp h
    obtain ⟨hn, heq⟩ := List.mem_filter.mp (List.mem_of_getLast? hlast)
    have hid' : n.id = nodeID := by simpa using heq
    rw [view_of_read hread] at hn
    exact ⟨hn, hid', by simpa [hid'] using hid⟩

end Manager

section Inspect

variable {s : WorkspaceStore} {file : File} {m m' m₀ : Connection.State} {probe : Probe}
  {k nodeID : String} {client : Nat} {e : Probe × String} {status : NodeStatus}

theorem Matched.inspect (h : Matched s file m)
    (hfits : Connects s file m e → Uniform s (viewOf s file) e.2) :
    Matched s file (inspectNodeByID s file m e.1 e.2).1 := by
  obtain ⟨hconns, -, hopened, -⟩ | ⟨node, hnode, hfree, hanswer, hstate⟩ :=
    inspectNodeByID_cases s file m e.1 e.2
  · exact h.mono hconns hopened fun _ _ _ _ _ => id
  · obtain ⟨hmem, hid, -⟩ := inspectedNode_mem hnode
    have huniform := hfits ⟨by rw [hnode]; rfl, hfree, hanswer⟩
    rw [hstate]
    exact h.connect (huniform.agrees hmem hid) rfl rfl

/-- An inspection keeps every connection that it finds. -/
theorem inspect_keeps (h : m.conns.lookup k = some client) :
    (inspectNodeByID s file m probe nodeID).1.conns.lookup k = some client := by
  obtain ⟨hconns, -⟩ | ⟨node, -, hfree, -, hstate⟩ := inspectNodeByID_cases s file m probe nodeID
  · rw [hconns]
    exact h
  · have hk : k ≠ nodeID := by
      rintro rfl
      exact hfree (Finmap.mem_of_lookup_eq_some h)
    rw [hstate]
    exact (Finmap.lookup_insert_of_ne _ hk).trans h

theorem inspectAll_keeps (events : List (Probe × String)) (h : m.conns.lookup k = some client) :
    (inspectAll s file m events).conns.lookup k = some client := by
  induction events generalizing m with
  | nil => exact h
  | cons e events ih => exact ih (inspect_keeps h)

theorem Matched.inspectAll (h : Matched s file m) (events : List (Probe × String))
    (hfits : ∀ e ∈ events, Connects s file m e → Uniform s (viewOf s file) e.2) :
    Matched s file (inspectAll s file m events) := by
  induction events generalizing m with
  | nil => exact h
  | cons e events ih =>
    obtain ⟨hfirst, hrest⟩ := List.forall_mem_cons.mp hfits
    apply ih (h.inspect hfirst)
    rintro e' he' ⟨hfound, hfree, hanswer⟩
    refine hrest e' he' ⟨hfound, fun hmem => hfree ?_, hanswer⟩
    -- What was connected before the inspection still is.
    obtain ⟨client, hclient⟩ := Finmap.mem_iff.mp hmem
    exact Finmap.mem_of_lookup_eq_some (inspect_keeps hclient)

theorem inspect_client
    (h : (inspectNodeByID s file m probe nodeID).2.client = some client) :
    (inspectNodeByID s file m probe nodeID).2.id = nodeID ∧ nodeID ≠ "" ∧
      (∃ n ∈ viewOf s file, n.id = nodeID) ∧
      (inspectNodeByID s file m probe nodeID).1.conns.lookup nodeID = some client := by
  unfold inspectNodeByID at h ⊢
  cases hnode : inspectedNode s probe.world file nodeID with
  | none =>
    rw [hnode] at h
    cases h
  | some node =>
    obtain ⟨hmem, hid, hne⟩ := inspectedNode_mem hnode
    have hview : ∃ n ∈ viewOf s file, n.id = nodeID := ⟨node, hmem, hid⟩
    rw [hnode] at h
    dsimp only at h ⊢
    cases hget : m.get nodeID with
    | ok c =>
      rw [hget] at h
      cases h
      exact ⟨hid, hne, hview, get_ok hget⟩
    | error err =>
      rw [hget] at h
      dsimp only at h ⊢
      split at h
      · cases h
      · split at h
        next hget' =>
          cases h
          exact ⟨hid, hne, hview, get_ok hget'⟩
        · cases h

theorem overviewNodes_client (probe : Nat → Probe) (i : Nat) (nodes : List Node)
    (hstatus : status ∈ (overviewNodes s file probe i nodes m).2)
    (hclient : status.client = some client) :
    (∃ n ∈ viewOf s file, n.id = status.id) ∧
      (overviewNodes s file probe i nodes m).1.conns.lookup status.id = some client := by
  induction nodes generalizing i m with
  | nil => cases hstatus
  | cons node nodes ih =>
    unfold overviewNodes at hstatus ⊢
    dsimp only at hstatus ⊢
    obtain heq | hstatus := List.mem_cons.mp hstatus
    · have hinspect : (inspectNodeByID s file m (probe i) node.id).2.client = some client := by
        rw [heq] at hclient
        split at hclient <;> exact hclient
      obtain ⟨hid, hne, hview, hlookup⟩ := inspect_client hinspect
      rw [if_neg (by rw [hid]; exact hne)] at heq
      rw [heq, hid, overviewNodes_eq]
      exact ⟨hview, inspectAll_keeps _ hlookup⟩
    · exact ih (i + 1) hstatus

end Inspect

structure Follows (s : WorkspaceStore) (st : Backend) : Prop where
  held : Matched s st.file st.manager
  handed : ∀ e ∈ st.handed, (∃ n ∈ viewOf s st.file, n.id = e.1) ∧
    st.manager.conns.lookup e.1 = some e.2

section Steps

variable {s : WorkspaceStore} {st t : Backend} {file : File} {manager : Connection.State}
  {r : Request} {w : Nat → World} {nodeID clusterID : String} {answer : Except String Unit}

theorem Follows.quiet (h : Matched s file manager) : Follows s ⟨file, manager, []⟩ :=
  ⟨h, List.forall_mem_nil _⟩

theorem mem_handedOut {statuses : List NodeStatus} {e : String × Nat} :
    e ∈ handedOut (.ok statuses) ↔
      ∃ status ∈ statuses, status.client = some e.2 ∧ status.id = e.1 := by
  unfold handedOut
  rw [List.mem_filterMap]
  refine exists_congr fun status => and_congr_right fun _ => ?_
  rw [Option.map_eq_some_iff]
  constructor
  · rintro ⟨c, hc, rfl⟩
    exact ⟨hc, rfl⟩
  · rintro ⟨hc, hid⟩
    exact ⟨e.2, hc, by rw [hid]⟩

theorem Follows.overview (h : Follows s st) (w : World) (probe : Nat → Probe)
    (hfits : Fits s st (.overview clusterID w probe)) :
    Follows s (st.serve s (.overview clusterID w probe)) where
  held := by
    change Matched s st.file (serveGet s st.file st.manager (.clusterOverview clusterID w probe)).1
    rw [serveGet_eq]
    exact h.held.inspectAll _ hfits
  handed := by
    intro e he
    change e ∈ handedOut (serveClusterOverview s st.file st.manager w probe clusterID).2 at he
    change _ ∧ (serveClusterOverview s st.file st.manager w probe clusterID).1.conns.lookup e.1 = _
    obtain ⟨err, herr⟩ | ⟨cluster, hok⟩ :=
      serveClusterOverview_cases s st.file st.manager w probe clusterID
    · rw [herr] at he
      cases he
    · rw [hok] at he ⊢
      obtain ⟨status, hstatus, hclient, hid⟩ := mem_handedOut.mp he
      have hright := overviewNodes_client probe 0 cluster.nodes.items hstatus hclient
      rw [hid] at hright
      exact hright

section Writes

variable (hdecode : ∀ bytes, s.crypto.decodeString (s.crypto.encodeToString bytes) = .ok bytes)
  (hopen : ∀ key, s.encKey = some key → ∀ (nonce : Nonce) plain,
    s.crypto.gcmOpen key nonce.val (s.crypto.gcmSeal key nonce.val plain) = .ok plain)

include hdecode hopen

theorem Matched.trySetStatus (h : Matched s file manager) (w : World)
    (status lastError : String) :
    Matched s (Activation.trySetStatus s w nodeID status lastError file) manager :=
  h.mono rfl rfl fun _ _ _ _ _ hview => hview.trySetStatus hdecode hopen w status lastError

theorem Matched.serveDeactivate (h : Matched s file manager) (w : World) :
    Matched s (serveNodeDeactivateAlone s w nodeID file manager).1
      (serveNodeDeactivateAlone s w nodeID file manager).2.1 := by
  unfold serveNodeDeactivateAlone
  split
  · exact h
  · exact h.deactivate.trySetStatus hdecode hopen w "unknown" ""

theorem Matched.activate (h : Matched s st.file st.manager)
    (hfits : Fits s st (.activate w answer nodeID)) :
    Matched s (serveNodeActivateAlone s w answer nodeID st.file st.manager).1
      (serveNodeActivateAlone s w answer nodeID st.file st.manager).2.1 := by
  unfold serveNodeActivateAlone
  cases hfind : findNode s (w 0) st.file nodeID with
  | error err => exact h
  | ok found =>
    obtain ⟨projectID, clusterID, targetNode⟩ := found
    obtain ⟨hmem, hid⟩ := findNode_mem hfind
    dsimp only
    cases hset : setStatus s (w 1) nodeID "connecting" "" st.file with
    | error err => exact h.mono rfl rfl fun _ _ _ _ _ => id
    | ok file =>
      have hregistered : Matched s file (st.manager.register nodeID (nodeConfig targetNode)) :=
        h.mono rfl rfl fun _ _ _ _ _ hview => hview.setStatus hdecode hopen hset
      dsimp only
      obtain ⟨err, hfail, -⟩ | ⟨cfg, hcfg, hanswer, hok⟩ :=
        activate_cases (st.manager.register nodeID (nodeConfig targetNode)) nodeID answer
      · rw [hfail]
        exact hregistered.trySetStatus hdecode hopen (w 2) "failed" err
      · rw [lookup_register, if_pos rfl] at hcfg
        cases hcfg
        have huniform := hfits ⟨_, hfind⟩ ⟨file, hset⟩ hanswer
        have hagrees := (huniform.agrees hmem hid).setStatus hdecode hopen hset
        rw [hok]
        exact (hregistered.connect hagrees rfl rfl).trySetStatus hdecode hopen (w 2) "ready" ""

theorem Matched.create (h : Matched s st.file st.manager) (req : NodeCreateRequest)
    (hfits : Fits s st (.create w clusterID req)) :
    Matched s (serveNodeCreate s w clusterID req st.file).1 st.manager := by
  obtain hsame | ⟨op, hedits, hr⟩ := serveNodeCreate_rewrites hdecode hopen req
  · rw [hsame]
    exact h
  · apply h.mono rfl rfl
    intro k client cfg hclient hcfg hview
    apply hview.rewrites hr
    · intro n hn hk
      cases List.mem_singleton.mp hn
      cases hk
      exact hfits ⟨op, _, hedits⟩ client cfg hclient hcfg
    · intro hk
      have hpos := hview.countP_pos hk
      rw [List.countP_nil]
      omega

theorem Matched.update (h : Matched s st.file st.manager) (req : NodeUpdateRequest)
    (hfits : Fits s st (.update w nodeID req)) :
    Matched s (serveNodeUpdate s w nodeID req st.file).1 st.manager := by
  obtain hsame | ⟨op, hedits, n, hid, hr⟩ := serveNodeUpdate_rewrites hdecode hopen req
  · rw [hsame]
    exact h
  · apply h.mono rfl rfl
    intro k client cfg hclient hcfg hview
    apply hview.patch hr rfl
    intro hk hconfig hread
    cases hid.symm.trans hk
    obtain ⟨hhost, hport, huser, hpassword, hdatabase⟩ :=
      hfits ⟨op, _, hedits⟩ client cfg hclient hcfg
    cases hconfig
    refine ⟨?_, readNode_same_password hread hpassword⟩
    change Config.mk _ _ _ _ _ = Config.mk _ _ _ _ _
    rw [Config.mk.injEq]
    exact ⟨hhost, hport, huser, hpassword, hdatabase⟩

theorem Matched.delete (h : Matched s st.file st.manager) (hfits : Fits s st (.delete w nodeID)) :
    Matched s (serveNodeDelete s w nodeID st.file).1 st.manager := by
  obtain hsame | ⟨op, hedits, n, hid, hr⟩ := serveNodeDelete_rewrites hdecode hopen
  · rw [hsame]
    exact h
  · refine h.removed hr fun k hk ⟨n', hn', hdeleted⟩ => ?_
    cases List.mem_singleton.mp hn'
    cases hid.symm.trans hdeleted
    rw [List.countP_singleton, if_pos (by simpa using hid)]
    exact hfits ⟨op, _, hedits⟩ hk

theorem Matched.deleteCluster (h : Matched s st.file st.manager)
    (hfits : Fits s st (.deleteCluster w clusterID)) :
    Matched s (serveClusterDelete s w clusterID st.file).1 st.manager := by
  obtain hsame | ⟨projectID, hedits, projects, c, hread, hc, hr⟩ :=
    serveClusterDelete_rewrites hdecode hopen
  · rw [hsame]
    exact h
  · exact h.removed hr (hfits projectID _ hedits (w 1) projects c hread hc)

theorem Follows.serve (h : Follows s st) (hfits : Fits s st r) : Follows s (st.serve s r) := by
  cases r with
  | create w clusterID req => exact .quiet (h.held.create hdecode hopen req hfits)
  | update w nodeID req => exact .quiet (h.held.update hdecode hopen req hfits)
  | delete w nodeID => exact .quiet (h.held.delete hdecode hopen hfits)
  | activate w answer nodeID => exact .quiet (h.held.activate hdecode hopen hfits)
  | deactivate w nodeID => exact .quiet (h.held.serveDeactivate hdecode hopen w)
  | deleteCluster w clusterID => exact .quiet (h.held.deleteCluster hdecode hopen hfits)
  | overview clusterID w probe => exact h.overview w probe hfits

end Writes

theorem Matched.right (h : Matched s st.file st.manager) {client : Nat}
    (hconn : st.manager.conns.lookup nodeID = some client)
    (hview : ∃ n ∈ viewOf s st.file, n.id = nodeID) : Right s st nodeID client := by
  obtain ⟨cfg, hcfg, hagrees⟩ := h nodeID client hconn
  exact ⟨cfg, hcfg, hview, fun n hn hid => (hagrees.config n hn hid).1⟩

theorem Follows.followed (h : Follows s st) : Followed s st := by
  constructor
  · intro nodeID client hactive
    obtain ⟨-, hconn⟩ := getActive_some hactive
    by_cases hview : ∃ n ∈ viewOf s st.file, n.id = nodeID
    · exact .inl (h.held.right hconn hview)
    · obtain ⟨cfg, -, hagrees⟩ := h.held nodeID client hconn
      have hauto : nodeID = "__auto__" := by
        by_contra hne
        exact hview (hagrees.present hne)
      exact .inr ⟨hauto, fun n hn hid => hview ⟨n, hn, hid⟩⟩
  · intro e he
    obtain ⟨hview, hconn⟩ := h.handed e he
    exact h.held.right hconn hview

theorem matched_startManager {auto : Option (Config × Except String Unit)}
    (hauto : ∀ cfg, auto = some (cfg, .ok ()) → Agrees s (viewOf s file) cfg "__auto__") :
    Matched s file (startManager auto) := by
  have hempty : Matched s file newManager := by
    intro nodeID client hclient
    cases hclient
  obtain ⟨hconns, -⟩ | ⟨cfg, hcfg, hopened, hconns⟩ := startManager_cases auto
  · intro nodeID client hclient
    rw [hconns] at hclient
    cases hclient
  · exact hempty.connect (hauto cfg hcfg) hconns hopened

/-- In every run whose requests all fit, from the server's start on, what is handed
out is connected to what the workspace stores. -/
theorem connections_follow
    (hdecode : ∀ bytes, s.crypto.decodeString (s.crypto.encodeToString bytes) = .ok bytes)
    (hopen : ∀ key, s.encKey = some key → ∀ (nonce : Nonce) plain,
      s.crypto.gcmOpen key nonce.val (s.crypto.gcmSeal key nonce.val plain) = .ok plain)
    {auto : Option (Config × Except String Unit)}
    (hauto : ∀ cfg, auto = some (cfg, .ok ()) → Agrees s (viewOf s file) cfg "__auto__")
    {requests : List Request}
    (hfits : (backend s file (startManager auto)).Meets (Fits s)
      (backend s file (startManager auto)).init requests)
    (hrun : (backend s file (startManager auto)).run requests = some t) : Followed s t := by
  have hfollows : Follows s t := by
    apply runFrom_keeps_of_meets _ _ hfits hrun
    · intro st r t h hfits hstep
      cases hstep
      exact h.serve hdecode hopen hfits
    · exact .quiet (matched_startManager hauto)
  exact hfollows.followed

theorem uniform_singleton {n : Node} (hread : Workspace.Places.readNode s n = n) :
    Uniform s [n] nodeID := by
  intro m hm _
  cases List.mem_singleton.mp hm
  refine ⟨hread, fun m' hm' _ => ?_⟩
  rw [List.mem_singleton.mp hm']

end Steps

def keylessStore : WorkspaceStore := ⟨zeroCrypto, none⟩

def activateAndLook : List Request :=
  [.activate (fun _ => zeros) (.ok ()) "n1", .overview "c1" zeros fun _ => ⟨zeros, .ok ()⟩]

theorem connections_follow_activateAndLook :
    ∃ t, (backend keylessStore oneFile (startManager none)).run activateAndLook = some t ∧
      Followed keylessStore t := by
  have hview : viewOf keylessStore oneFile = [_] := rfl
  have huniform : Uniform keylessStore (viewOf keylessStore oneFile) "n1" := by
    rw [hview]
    exact uniform_singleton rfl
  have hfits : (backend keylessStore oneFile (startManager none)).Meets (Fits keylessStore)
      (backend keylessStore oneFile (startManager none)).init activateAndLook := by
    refine (meets_cons rfl).mpr ⟨fun _ _ _ => huniform, ?_⟩
    refine (meets_cons rfl).mpr ⟨?_, trivial⟩
    rintro e he ⟨-, hfree, -⟩
    cases List.mem_singleton.mp he
    exact absurd (Finmap.mem_of_lookup_eq_some rfl) hfree
  obtain ⟨t, hrun⟩ : ∃ t,
      (backend keylessStore oneFile (startManager none)).run activateAndLook = some t := ⟨_, rfl⟩
  have hauto : ∀ cfg, (none : Option (Config × Except String Unit)) = some (cfg, .ok ()) →
      Agrees keylessStore (viewOf keylessStore oneFile) cfg "__auto__" := nofun
  exact ⟨t, hrun, connections_follow zeroCrypto_decode nofun hauto hfits hrun⟩

/-- The manager keeps the client of a node that is deleted. -/
theorem deleted_node_connected :
    ¬ ∀ (s : WorkspaceStore) (file : File) (auto : Option (Config × Except String Unit))
      (requests : List Request) (t : Backend),
      (∀ bytes, s.crypto.decodeString (s.crypto.encodeToString bytes) = .ok bytes) →
      (∀ key, s.encKey = some key → ∀ (nonce : Nonce) plain,
        s.crypto.gcmOpen key nonce.val (s.crypto.gcmSeal key nonce.val plain) = .ok plain) →
      (∀ cfg, auto = some (cfg, .ok ()) → Agrees s (viewOf s file) cfg "__auto__") →
      (backend s file (startManager auto)).run requests = some t → Followed s t := by
  intro h
  have hfollowed := h keylessStore oneFile none
    [.activate (fun _ => zeros) (.ok ()) "n1", .delete (fun _ => zeros) "n1"] _ zeroCrypto_decode
    nofun nofun rfl
  obtain ⟨cfg, -, ⟨n, hn, -⟩, -⟩ | ⟨hauto, -⟩ := hfollowed.1 "n1" 0 rfl
  · cases hn
  · revert hauto
    decide

end LearnPg.Api.Following
