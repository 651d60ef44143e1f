import LearnPg.Api.AllOrNothing
import LearnPg.Basis.Interpolation
import LearnPg.Provision.Names

/-! What the replication provider has docker-compose start: the two compose files of the
generator, the services that are read from them, and the variables that are put in. -/
namespace LearnPg.Provision.Compose
open LearnPg.Basis Basis.Calls Basis.Interpolation Names

abbrev Text := List Char

def physicalLines : List String :=
  ["version: \"3.8\"",
    "",
    "services:",
    "  primary:",
    "    image: docker.m.daocloud.io/library/postgres:$\x7bPG_VERSION:-16\x7d",
    "    container_name: $\x7bPROJECT_NAME\x7d-primary",
    "    environment:",
    "      POSTGRES_USER: postgres",
    "      POSTGRES_PASSWORD: postgres",
    "      POSTGRES_DB: postgres",
    "    ports:",
    "      - \"$\x7bPRIMARY_PORT:-5432\x7d:5432\"",
    "    volumes:",
    "      - primary_data:/var/lib/postgresql/data",
    "    command:",
    "      - postgres",
    "      - -c",
    "      - wal_level=replica",
    "      - -c",
    "      - max_wal_senders=10",
    "      - -c",
    "      - hot_standby=on",
    "    healthcheck:",
    "      test: [\"CMD-SHELL\", \"pg_isready -U postgres\"]",
    "      interval: 5s",
    "      timeout: 5s",
    "      retries: 5",
    "",
    "  standby:",
    "    image: docker.m.daocloud.io/library/postgres:$\x7bPG_VERSION:-16\x7d",
    "    container_name: $\x7bPROJECT_NAME\x7d-standby",
    "    environment:",
    "      POSTGRES_USER: postgres",
    "      POSTGRES_PASSWORD: postgres",
    "      POSTGRES_DB: postgres",
    "    ports:",
    "      - \"$\x7bSTANDBY_PORT:-5433\x7d:5432\"",
    "    volumes:",
    "      - standby_data:/var/lib/postgresql/data",
    "    command:",
    "      - postgres",
    "      - -c",
    "      - hot_standby=on",
    "    depends_on:",
    "      primary:",
    "        condition: service_healthy",
    "    environment:",
    "      POSTGRES_USER: postgres",
    "      POSTGRES_PASSWORD: postgres",
    "    entrypoint: [\"/bin/bash\", \"-c\"]",
    "    command:",
    "      - |",
    "        export PRIMARY_HOST=primary",
    "        rm -rf /var/lib/postgresql/data/*",
    "        chown postgres:postgres /var/lib/postgresql/data",
    "        su postgres -c \"pg_basebackup -h $PRIMARY_HOST -U postgres -D /var/lib/postgresql/data -R -P -Xs\"",
    "        su postgres -c \"postgres -c hot_standby=on\"",
    "",
    "volumes:",
    "  primary_data:",
    "  standby_data:",
    ""]

def logicalLines : List String :=
  ["version: \"3.8\"",
    "",
    "services:",
    "  publisher:",
    "    image: docker.m.daocloud.io/library/postgres:$\x7bPG_VERSION:-16\x7d",
    "    container_name: $\x7bPROJECT_NAME\x7d-publisher",
    "    environment:",
    "      POSTGRES_USER: postgres",
    "      POSTGRES_PASSWORD: postgres",
    "      POSTGRES_DB: postgres",
    "    ports:",
    "      - \"$\x7bPUBLISHER_PORT:-5432\x7d:5432\"",
    "    volumes:",
    "      - publisher_data:/var/lib/postgresql/data",
    "    command:",
    "      - postgres",
    "      - -c",
    "      - wal_level=logical",
    "      - -c",
    "      - max_wal_senders=10",
    "      - -c",
    "      - max_replication_slots=10",
    "    healthcheck:",
    "      test: [\"CMD-SHELL\", \"pg_isready -U postgres\"]",
    "      interval: 5s",
    "      timeout: 5s",
    "      retries: 5",
    "",
    "  subscriber:",
    "    image: docker.m.daocloud.io/library/postgres:$\x7bPG_VERSION:-16\x7d",
    "    container_name: $\x7bPROJECT_NAME\x7d-subscriber",
    "    environment:",
    "      POSTGRES_USER: postgres",
    "      POSTGRES_PASSWORD: postgres",
    "      POSTGRES_DB: postgres",
    "    ports:",
    "      - \"$\x7bSUBSCRIBER_PORT:-5433\x7d:5432\"",
    "    volumes:",
    "      - subscriber_data:/var/lib/postgresql/data",
    "    depends_on:",
    "      publisher:",
    "        condition: service_healthy",
    "    command:",
    "      - postgres",
    "      - -c",
    "      - hot_standby=on",
    "",
    "volumes:",
    "  publisher_data:",
    "  subscriber_data:",
    ""]

/-- The template has no action, so its execution gives its text whatever the data are. -/
def generatePhysicalCompose : String := "\n".intercalate physicalLines

def generateLogicalCompose : String := "\n".intercalate logicalLines

def generate (type : String) : String :=
  if type = "physical" then generatePhysicalCompose else generateLogicalCompose

structure ComposeService where
  name : Text
  image : Text
  containerName : Text
  ports : List Text
  deriving DecidableEq

def keyOf (body : Text) : Text := body.takeWhile (· ≠ ':')

def scalarOf (body : Text) : Text := (body.dropWhile (· ≠ ':')).drop 2

/-- A scan of a compose file: the section and the key that it is in, and the services so
far, the last one first. -/
structure Reading where
  top : Text
  key : Text
  services : List ComposeService

def ComposeService.set (body : Text) (s : ComposeService) : ComposeService :=
  if keyOf body = "image".toList then { s with image := scalarOf body }
  else if keyOf body = "container_name".toList then { s with containerName := scalarOf body }
  else s

/-- The depth of a line says what it belongs to. An item is written `- "text"`. -/
def readLine (r : Reading) (line : Text) : Reading :=
  let body := line.dropWhile (· = ' ')
  let depth := line.length - body.length
  if body = [] then r
  else if depth = 0 then { r with top := keyOf body }
  else if r.top ≠ "services".toList then r
  else if depth = 2 then { r with services := ⟨keyOf body, [], [], []⟩ :: r.services }
  else if depth = 4 then
    { r with key := keyOf body, services := r.services.modifyHead (·.set body) }
  else if depth = 6 ∧ r.key = "ports".toList then
    let port := (body.drop 3).dropLast
    { r with services := r.services.modifyHead fun s => { s with ports := s.ports ++ [port] } }
  else r

def readServices (content : String) : List ComposeService :=
  ((content.toList.splitOn '\n').foldl readLine ⟨[], [], []⟩).services.reverse

def ComposeService.interpolate (vars : Variables) (s : ComposeService) : ComposeService :=
  ⟨s.name, Interpolation.interpolate vars s.image, Interpolation.interpolate vars s.containerName,
    s.ports.map (Interpolation.interpolate vars)⟩

def servicesOf (vars : Variables) (content : String) : List ComposeService :=
  (readServices content).map (·.interpolate vars)

/-- The compose files by their project, and the services of the projects that are up. -/
structure Machine where
  clock : Nat
  files : String → Option String
  projects : String → List ComposeService

def Machine.tick (m : Machine) : Machine := { m with clock := m.clock + 1 }

/-- `vars` are the variables of the process. -/
def handle (vars : Variables) (replies : Nat → (c : Call) → Reply c) (m : Machine) :
    (c : Call) → Reply c × Machine
  | .writeCompose project content =>
    let err := replies m.clock (.writeCompose project content)
    (err, if err = none
      then { m.tick with files := Function.update m.files project (some content) } else m.tick)
  | .command (.composeUp project) =>
    let err := replies m.clock (.command (.composeUp project))
    let services := ((m.files project).map (servicesOf vars)).getD []
    (err, if err = none
      then { m.tick with projects := Function.update m.projects project services } else m.tick)
  | .command (.composeDown project) =>
    let err := replies m.clock (.command (.composeDown project))
    (err, if err = none
      then { m.tick with projects := Function.update m.projects project [] } else m.tick)
  | c => (replies m.clock c, m.tick)

def decimal (digits : Text) : Option Nat :=
  if digits ≠ [] ∧ digits.all Char.isDigit = true then some (Nat.ofDigitChars 10 digits 0) else none

/-- A port of the host, at one of its addresses. -/
structure Listening where
  address : Text
  port : Nat
  deriving DecidableEq

def Listening.Everywhere (l : Listening) : Prop := l.address = [] ∨ l.address = "0.0.0.0".toList

def Listening.Clashes (l other : Listening) : Prop :=
  l.port = other.port ∧ (l.address = other.address ∨ l.Everywhere ∨ other.Everywhere)

/-- A client that asks the address gets to it. -/
def Listening.Answers (l : Listening) (address : Text) : Prop :=
  l.Everywhere ∨ l.address = address

/-- What `host:container` and `address:host:container` take of the host. -/
def published (mapping : Text) : Option Listening :=
  match mapping.splitOn ':' with
  | [host, _] => (decimal host).map (⟨[], ·⟩)
  | [address, host, _] => (decimal host).map (⟨address, ·⟩)
  | _ => none

def ComposeService.Publishes (s : ComposeService) (l : Listening) : Prop :=
  ∃ mapping ∈ s.ports, published mapping = some l

/-- The port of a spec, where zero stands for the default. -/
def secondaryPort (spec : ReplicationSpec) : Int :=
  if spec.secondaryPort = 0 then 5433 else spec.secondaryPort

def secondaryName (type : String) : Text :=
  if type = "physical" then "standby".toList else "subscriber".toList

/-- The services are those of the spec, and the record denotes the secondary among them. -/
structure Honoured (spec : ReplicationSpec) (info : ReplicaInfo)
    (services : List ComposeService) : Prop where
  version : ∀ s ∈ services,
    s.image = "docker.m.daocloud.io/library/postgres:".toList ++ spec.pgVersion.toList
  names : ∀ s ∈ services, s.containerName = info.composeProject.toList ++ '-' :: s.name
  secondary : ∃ s ∈ services, s.name = secondaryName spec.type ∧
    s.containerName = info.secondaryInfo.containerID.toList ∧
    ∃ l, s.Publishes l ∧ l.Answers info.secondaryInfo.host.toList ∧
      (l.port : Int) = secondaryPort spec ∧ (l.port : Int) = info.secondaryInfo.port

def Coexist (services others : List ComposeService) : Prop :=
  ∀ s ∈ services, ∀ t ∈ others, s.containerName ≠ t.containerName ∧
    ∀ l l', s.Publishes l → t.Publishes l' → ¬ l.Clashes l'

def ports (spec : ReplicationSpec) : List Int := [spec.primaryPort, secondaryPort spec]

def Different (a b : ReplicationSpec) : Prop :=
  a.name ≠ b.name ∧ ∀ port ∈ ports a, port ∉ ports b

/-- The port that a variable of the process gives, which may come with an address. -/
def portOf (vars : Variables) (name default : String) : Option Listening :=
  published (valueOr vars name.toList default.toList ++ ":5432".toList)

/-- The variables of the process happen to be those of this run of the spec. -/
structure Matches (vars : Variables) (spec : ReplicationSpec) (unix : Int) : Prop where
  physical : spec.type = "physical"
  version : valueOr vars "PG_VERSION".toList "16".toList = spec.pgVersion.toList
  project : value vars "PROJECT_NAME".toList = (replicaProject spec.name unix).toList
  port : ∃ l, portOf vars "STANDBY_PORT" "5433" = some l ∧ l.Answers "127.0.0.1".toList ∧
    (l.port : Int) = secondaryPort spec

/-- The types are different ones, and the ports of the one are none of the other's. -/
structure Apart (vars : Variables) (type other : String) : Prop where
  types : ¬ (type = "physical" ↔ other = "physical")
  ports : ∀ p ∈ [portOf vars "PRIMARY_PORT" "5432", portOf vars "STANDBY_PORT" "5433"],
    ∀ q ∈ [portOf vars "PUBLISHER_PORT" "5432", portOf vars "SUBSCRIBER_PORT" "5433"],
      ∀ l l', p = some l → q = some l' → ¬ l.Clashes l'

def template (name portVar default : String) : ComposeService :=
  ⟨name.toList, "docker.m.daocloud.io/library/postgres:$\x7bPG_VERSION:-16\x7d".toList,
    "$\x7bPROJECT_NAME\x7d-".toList ++ name.toList,
    ["$\x7b".toList ++ portVar.toList ++ ":-".toList ++ default.toList ++ "\x7d:5432".toList]⟩

/-- The service with the variables put in. -/
def service (vars : Variables) (name portVar default : String) : ComposeService :=
  ⟨name.toList, "docker.m.daocloud.io/library/postgres:".toList ++
      valueOr vars "PG_VERSION".toList "16".toList,
    value vars "PROJECT_NAME".toList ++ '-' :: name.toList,
    [valueOr vars portVar.toList default.toList ++ ":5432".toList]⟩

theorem readServices_eq {lines : List String} {services : List ComposeService} (hne : lines ≠ [])
    (h : (∀ line ∈ lines.map String.toList, '\n' ∉ line) ∧
      ((lines.map String.toList).foldl readLine ⟨[], [], []⟩).services.reverse = services) :
    readServices ("\n".intercalate lines) = services := by
  have hsep : "\n".toList = ['\n'] := rfl
  unfold readServices
  rw [String.toList_intercalate, hsep, List.splitOn_intercalate '\n' h.1 (by simpa using hne), h.2]

theorem readServices_physical : readServices generatePhysicalCompose =
    [template "primary" "PRIMARY_PORT" "5432", template "standby" "STANDBY_PORT" "5433"] :=
  readServices_eq nofun (by decide +kernel)

theorem readServices_logical : readServices generateLogicalCompose =
    [template "publisher" "PUBLISHER_PORT" "5432",
      template "subscriber" "SUBSCRIBER_PORT" "5433"] :=
  readServices_eq nofun (by decide +kernel)

section

variable {vars : Variables} {name portVar default : String} {type : String}

theorem interpolate_template (hname : '$' ∉ name.toList) (hvar : ':' ∉ portVar.toList)
    (hbrace : '\x7d' ∉ portVar.toList ++ default.toList) :
    (template name portVar default).interpolate vars = service vars name portVar default := by
  have himage : interpolate vars (template name portVar default).image =
      (service vars name portVar default).image := by
    have happly : interpolate vars ("docker.m.daocloud.io/library/postgres:".toList ++
        '$' :: '\x7b' :: ("PG_VERSION:-16".toList ++ '\x7d' :: [])) =
        "docker.m.daocloud.io/library/postgres:".toList ++
          (expand vars "PG_VERSION:-16".toList ++ []) :=
      interpolate_variable (by decide) (by decide) (by decide)
    rw [List.append_nil] at happly
    exact happly
  have hcontainer : interpolate vars (template name portVar default).containerName =
      (service vars name portVar default).containerName := by
    have happly : interpolate vars ([] ++ '$' :: '\x7b' ::
        ("PROJECT_NAME".toList ++ '\x7d' :: '-' :: name.toList)) =
        [] ++ (expand vars "PROJECT_NAME".toList ++ '-' :: name.toList) :=
      interpolate_variable (by decide) (by decide) (by simpa using hname)
    rw [expand_name (by decide)] at happly
    exact happly
  have hport : interpolate vars ("$\x7b".toList ++ portVar.toList ++ ":-".toList ++
      default.toList ++ "\x7d:5432".toList) =
      valueOr vars portVar.toList default.toList ++ ":5432".toList := by
    have happly : interpolate vars ([] ++ '$' :: '\x7b' ::
        ((portVar.toList ++ ':' :: '-' :: default.toList) ++ '\x7d' :: ":5432".toList)) =
        [] ++ (expand vars (portVar.toList ++ ':' :: '-' :: default.toList) ++ ":5432".toList) :=
      interpolate_variable (by decide) (by simpa using hbrace) (by decide)
    rw [expand_default hvar] at happly
    rw [← List.nil_append (valueOr vars _ _ ++ _), ← happly]
    congr 1
    simp
  unfold ComposeService.interpolate
  rw [himage, hcontainer]
  unfold template service
  rw [List.map_singleton, hport]

def started (vars : Variables) (type : String) : List ComposeService :=
  if type = "physical" then
    [service vars "primary" "PRIMARY_PORT" "5432", service vars "standby" "STANDBY_PORT" "5433"]
  else
    [service vars "publisher" "PUBLISHER_PORT" "5432",
      service vars "subscriber" "SUBSCRIBER_PORT" "5433"]

theorem servicesOf_generate : servicesOf vars (generate type) = started vars type := by
  unfold servicesOf generate started
  split
  · rw [readServices_physical, List.map_cons, List.map_cons, List.map_nil,
      interpolate_template (by decide) (by decide) (by decide),
      interpolate_template (by decide) (by decide) (by decide)]
  · rw [readServices_logical, List.map_cons, List.map_cons, List.map_nil,
      interpolate_template (by decide) (by decide) (by decide),
      interpolate_template (by decide) (by decide) (by decide)]

theorem publishes_service (l : Listening) :
    (service vars name portVar default).Publishes l ↔ portOf vars portVar default = some l := by
  unfold ComposeService.Publishes service portOf
  simp only [List.mem_singleton, exists_eq_left]

end

section Runs

variable {vars : Variables} {replies : Nat → (c : Call) → Reply c} {m : Machine}
  {spec : ReplicationSpec}

theorem up_does (project content : String) :
    (DockerReplication.up project content).Does (handle vars replies) (fun _ _ => True) m
      fun err t _ => err = none → t.projects project = servicesOf vars content := by
  refine does_bind (does_ask (Q := fun err t _ =>
    err = none → t.files project = some content) fun herr => ?_) fun err t _ ht => ?_
  · have hsome : (handle vars replies m (.writeCompose project content)).2 = { m.tick with
        files := Function.update m.files project (some content) } := if_pos herr
    rw [hsome]
    exact Function.update_self ..
  cases err with
  | some err => exact does_pure nofun
  | none =>
    refine does_bind (does_ask (Q := fun err u _ =>
      err = none → u.projects project = servicesOf vars content) fun herr => ?_)
      fun err u _ hu => ?_
    · have hsome : (handle vars replies t (.command (.composeUp project))).2 = { t.tick with
          projects := Function.update t.projects project
            (((t.files project).map (servicesOf vars)).getD []) } := if_pos herr
      rw [hsome, ht rfl]
      exact Function.update_self ..
    cases err with
    | some err => exact does_pure nofun
    | none => exact does_pure fun _ => hu rfl

theorem waitForPort_does (host : String) (port : Int) (attempts : Nat) :
    (waitForPort host port attempts).Does (handle vars replies) (fun _ _ => True) m
      fun _ t _ => t.projects = m.projects := by
  induction attempts generalizing m with
  | zero => exact does_pure rfl
  | succ attempts ih =>
    refine does_bind (does_ask (Q := fun _ t _ => t.projects = m.projects) rfl)
      fun err t _ ht => ?_
    cases err with
    | some err => exact does_pure ht
    | none =>
      refine does_bind (does_ask (Q := fun _ u _ => u.projects = m.projects) ht)
        fun open? u _ hu => ?_
      cases open? with
      | true => exact does_pure hu
      | false => exact (ih (m := u)).imp fun _ _ _ h => h.trans hu

structure Started (vars : Variables) (spec : ReplicationSpec) (unix : Int) (info : ReplicaInfo)
    (m : Machine) : Prop where
  project : info.composeProject = replicaProject spec.name unix
  containerID : info.secondaryInfo.containerID = info.composeProject ++ "-standby"
  host : info.secondaryInfo.host = "127.0.0.1"
  port : info.secondaryInfo.port = secondaryPort spec
  services : m.projects info.composeProject = started vars spec.type

theorem startReplica_does (primaryInfo : InstanceInfo) :
    (DockerReplication.startReplica generate spec primaryInfo).Does (handle vars replies)
      (fun _ _ => True) m fun r t _ =>
        ∀ info, r = .ok info → Started vars spec (replies m.clock .unix) info t := by
  refine does_bind (does_ask (Q := fun now _ _ => now = replies m.clock .unix) rfl)
    fun now m1 _ hnow => ?_
  refine does_bind (up_does _ _) fun err m2 _ hup => ?_
  cases err with
  | some err => exact does_pure nofun
  | none =>
    refine does_bind (waitForPort_does _ _ _) fun err m3 _ hwait => ?_
    cases err with
    | some err =>
      refine does_bind (Q := fun _ _ _ => True) trivial fun _ _ _ _ => does_pure nofun
    | none =>
      refine does_pure fun info hinfo => ?_
      cases hinfo
      refine ⟨by rw [hnow]; rfl, rfl, rfl, rfl, ?_⟩
      rw [hwait, hup rfl, servicesOf_generate]

variable {unix : Int} {info : ReplicaInfo} {type other : String}

theorem started_of_run {primary : InstanceInfo} {t : Machine}
    (h : (DockerReplication.startReplica generate spec primary).run (handle vars replies) m =
      (.ok info, t)) : Started vars spec (replies m.clock .unix) info t := by
  have hdoes : ∀ info,
      ((DockerReplication.startReplica generate spec primary).run (handle vars replies) m).1 =
        .ok info → Started vars spec (replies m.clock .unix) info
          ((DockerReplication.startReplica generate spec primary).run (handle vars replies) m).2 :=
    startReplica_does primary
  rw [h] at hdoes
  exact hdoes info rfl

theorem mem_started (h : spec.type = "physical") {s : ComposeService} :
    s ∈ started vars spec.type ↔ s = service vars "primary" "PRIMARY_PORT" "5432" ∨
      s = service vars "standby" "STANDBY_PORT" "5433" := by
  rw [started, if_pos h, List.mem_pair]

theorem toList_standby (project : String) :
    (project ++ "-standby").toList = project.toList ++ '-' :: "standby".toList :=
  String.toList_append

theorem honoured_iff (h : Started vars spec unix info m) :
    Honoured spec info (m.projects info.composeProject) ↔ Matches vars spec unix := by
  rw [h.services]
  constructor
  · rintro ⟨hversion, hnames, s, hs, hname, hid, l, hport, hanswers, hwanted, -⟩
    have hstandby : s.name = "standby".toList := by
      rw [hnames s hs, h.containerID, toList_standby] at hid
      exact (List.cons.inj (List.append_cancel_left hid)).2
    have hphysical : spec.type = "physical" := by
      by_contra hlogical
      rw [hstandby, secondaryName, if_neg hlogical] at hname
      revert hname
      decide
    have hprimary : service vars "primary" "PRIMARY_PORT" "5432" ∈ started vars spec.type :=
      (mem_started hphysical).mpr (.inl rfl)
    refine ⟨hphysical, ?_, ?_, ?_⟩
    · exact List.append_cancel_left (hversion _ hprimary)
    · rw [← h.project]
      exact List.append_cancel_right (hnames _ hprimary)
    · obtain rfl | rfl := (mem_started hphysical).mp hs
      · have hother : "primary".toList ≠ "standby".toList := by decide
        exact absurd hstandby hother
      · rw [h.host] at hanswers
        exact ⟨l, (publishes_service l).mp hport, hanswers, hwanted⟩
  · intro hmatches
    have hname (name portVar default : String) :
        (service vars name portVar default).containerName =
          info.composeProject.toList ++ '-' :: name.toList := by
      rw [h.project, ← hmatches.project]
      rfl
    obtain ⟨l, hport, hanswers, hwanted⟩ := hmatches.port
    refine ⟨?_, ?_, service vars "standby" "STANDBY_PORT" "5433", ?_, ?_, ?_, l, ?_, ?_, hwanted, ?_⟩
    · intro s hs
      rw [← hmatches.version]
      obtain rfl | rfl := (mem_started hmatches.physical).mp hs <;> rfl
    · intro s hs
      obtain rfl | rfl := (mem_started hmatches.physical).mp hs
      · exact hname ..
      · exact hname ..
    · exact (mem_started hmatches.physical).mpr (.inr rfl)
    · rw [secondaryName, if_pos hmatches.physical]
      rfl
    · rw [hname, h.containerID, toList_standby]
    · exact (publishes_service l).mpr hport
    · rw [h.host]
      exact hanswers
    · rw [h.port]
      exact hwanted

theorem clashes_comm {l l' : Listening} (h : l.Clashes l') : l'.Clashes l :=
  ⟨h.1.symm, h.2.imp Eq.symm Or.symm⟩

theorem coexist_comm {services others : List ComposeService} :
    Coexist services others ↔ Coexist others services := by
  have hswap {services others : List ComposeService} (h : Coexist services others) :
      Coexist others services := fun t ht s hs =>
    ⟨(h s hs t ht).1.symm, fun l l' hl hl' hclash =>
      (h s hs t ht).2 l' l hl' hl (clashes_comm hclash)⟩
  exact ⟨hswap, hswap⟩

/-- A physical and a logical replication have no name in common. -/
theorem coexist_mixed (htype : type = "physical") (hother : other ≠ "physical") :
    Coexist (started vars type) (started vars other) ↔
      ∀ p ∈ [portOf vars "PRIMARY_PORT" "5432", portOf vars "STANDBY_PORT" "5433"],
        ∀ q ∈ [portOf vars "PUBLISHER_PORT" "5432", portOf vars "SUBSCRIBER_PORT" "5433"],
          ∀ l l', p = some l → q = some l' → ¬ l.Clashes l' := by
  have hpair {name name' : String} (portVar default portVar' default' : String)
      (hne : name.toList ≠ name'.toList) :
      ((service vars name portVar default).containerName ≠
          (service vars name' portVar' default').containerName ∧
        ∀ l l', (service vars name portVar default).Publishes l →
          (service vars name' portVar' default').Publishes l' → ¬ l.Clashes l') ↔
      ∀ l l', portOf vars portVar default = some l → portOf vars portVar' default' = some l' →
        ¬ l.Clashes l' := by
    simp only [publishes_service]
    exact and_iff_right fun h => hne (List.cons.inj (List.append_cancel_left h)).2
  unfold Coexist started
  rw [if_pos htype, if_neg hother]
  simp only [List.forall_mem_cons, List.not_mem_nil, false_imp_iff, implies_true, and_true]
  rw [hpair _ _ _ _ (by decide), hpair _ _ _ _ (by decide), hpair _ _ _ _ (by decide),
    hpair _ _ _ _ (by decide)]

theorem not_coexist (h : type = "physical" ↔ other = "physical") :
    ¬ Coexist (started vars type) (started vars other) := by
  have hsame : started vars type = started vars other := by
    unfold started
    simp only [h]
  have hsome : ∃ s, s ∈ started vars other := by
    unfold started
    split
    · exact ⟨_, List.mem_cons_self⟩
    · exact ⟨_, List.mem_cons_self⟩
  obtain ⟨s, hs⟩ := hsome
  rw [hsame]
  exact fun hcoexist => (hcoexist s hs s hs).1 rfl

theorem coexist_iff : Coexist (started vars type) (started vars other) ↔ Apart vars type other := by
  by_cases hsame : type = "physical" ↔ other = "physical"
  · exact iff_of_false (not_coexist hsame) fun h => h.types hsame
  have happart : Apart vars type other ↔ _ := ⟨Apart.ports, fun h => ⟨hsame, h⟩⟩
  rw [happart]
  by_cases htype : type = "physical"
  · exact coexist_mixed htype fun hother => hsame (iff_of_true htype hother)
  · rw [coexist_comm]
    refine coexist_mixed ?_ htype
    by_contra hother
    exact hsame (iff_of_false htype hother)

end Runs

/-- A replication that started honours its spec, and a different one can be beside it, exactly
if the variables of the process happen to be those of the run and keep the two apart. -/
theorem honours_iff {vars : Variables} {replies others : Nat → (c : Call) → Reply c}
    {a b : ReplicationSpec} {primaryA primaryB : InstanceInfo} {infoA infoB : ReplicaInfo}
    {m m' ma mb : Machine}
    (ha : (DockerReplication.startReplica generate a primaryA).run (handle vars replies) m =
      (.ok infoA, ma))
    (hb : (DockerReplication.startReplica generate b primaryB).run (handle vars others) m' =
      (.ok infoB, mb)) :
    (Honoured a infoA (ma.projects infoA.composeProject) ∧
      (Different a b → Coexist (ma.projects infoA.composeProject)
        (mb.projects infoB.composeProject))) ↔
    Matches vars a (replies m.clock .unix) ∧ (Different a b → Apart vars a.type b.type) := by
  have hstartedA := started_of_run ha
  have hstartedB := started_of_run hb
  rw [honoured_iff hstartedA, hstartedA.services, hstartedB.services, coexist_iff]

def noVariables : Variables := fun _ => none

def idle : Machine := ⟨0, fun _ => none, fun _ => []⟩

def noPrimary : InstanceInfo := ⟨"", "", "", 0, "", ""⟩

def shop : ReplicationSpec := ⟨"shop", "physical", "16", 5439, 5440, "docker-replication"⟩

def wiki : ReplicationSpec := ⟨"wiki", "physical", "16", 6439, 6440, "docker-replication"⟩

def start (vars : Variables) (spec : ReplicationSpec) : Except String ReplicaInfo × Machine :=
  (DockerReplication.startReplica generate spec noPrimary).run
    (handle vars fun _ c => Api.calmReply c) idle

def infoOf (spec : ReplicationSpec) : ReplicaInfo :=
  let project := replicaProject spec.name 7
  ⟨"docker-replication", project, noPrimary, ⟨"docker-replication", project ++ "-standby",
    "127.0.0.1", secondaryPort spec, "", spec.name ++ "-secondary"⟩⟩

def upOf (vars : Variables) (spec : ReplicationSpec) : List ComposeService :=
  (start vars spec).2.projects (infoOf spec).composeProject

theorem start_eq (vars : Variables) (spec : ReplicationSpec) :
    start vars spec = (.ok (infoOf spec), (start vars spec).2) := rfl

theorem started_infoOf (vars : Variables) (spec : ReplicationSpec) :
    Started vars spec 7 (infoOf spec) (start vars spec).2 := by
  exact started_of_run (start_eq vars spec)

/-- The variables of a run for `shop`, whose standby is published at one address. -/
def shopVariables : Variables := fun name =>
  (["PRIMARY_PORT", "STANDBY_PORT", "PROJECT_NAME"].zip
    ["5439", "127.0.0.1:5440", replicaProject "shop" 7]).lookup (String.ofList name) |>.map
      String.toList

theorem matches_shop : Matches shopVariables shop 7 where
  physical := rfl
  version := by decide
  project := by decide
  port := ⟨⟨"127.0.0.1".toList, 5440⟩, by decide, .inr rfl, by decide⟩

theorem apart_shop : Apart shopVariables "physical" "logical" where
  types := by decide
  ports := by
    have hprimary : portOf shopVariables "PRIMARY_PORT" "5432" = some ⟨[], 5439⟩ := by decide
    have hstandby : portOf shopVariables "STANDBY_PORT" "5433" =
        some ⟨"127.0.0.1".toList, 5440⟩ := by decide
    have hpublisher : portOf shopVariables "PUBLISHER_PORT" "5432" = some ⟨[], 5432⟩ := by decide
    have hsubscriber : portOf shopVariables "SUBSCRIBER_PORT" "5433" = some ⟨[], 5433⟩ := by decide
    rw [hprimary, hstandby, hpublisher, hsubscriber]
    rintro p hp q hq l l' rfl rfl ⟨hport, -⟩
    simp only [List.mem_cons, Option.some_inj, List.not_mem_nil, or_false] at hp hq
    rcases hp with rfl | rfl <;> rcases hq with rfl | rfl <;> exact absurd hport (by decide)

def forum : ReplicationSpec := ⟨"forum", "logical", "16", 6439, 6440, "docker-replication"⟩

theorem honours_shop_forum : Different shop forum ∧
    Honoured shop (infoOf shop) (upOf shopVariables shop) ∧
    Coexist (upOf shopVariables shop) (upOf shopVariables forum) := by
  have hdifferent : Different shop forum := ⟨by decide, by decide⟩
  obtain ⟨hhonoured, hcoexist⟩ := (honours_iff (start_eq shopVariables shop)
    (start_eq shopVariables forum)).mpr ⟨matches_shop, fun _ => apart_shop⟩
  exact ⟨hdifferent, hhonoured, hcoexist hdifferent⟩

/-- Both are asked for on ports of their own and published on 5432 and 5433, under one name. -/
theorem specs_ignored : Different shop wiki ∧
    start noVariables shop = (.ok (infoOf shop), (start noVariables shop).2) ∧
    start noVariables wiki = (.ok (infoOf wiki), (start noVariables wiki).2) ∧
    ¬ Honoured shop (infoOf shop) (upOf noVariables shop) ∧
    ¬ Coexist (upOf noVariables shop) (upOf noVariables wiki) := by
  refine ⟨⟨by decide, by decide⟩, start_eq _ shop, start_eq _ wiki, fun h => ?_, fun h => ?_⟩
  · obtain ⟨l, hl, -, hwanted⟩ := ((honoured_iff (started_infoOf noVariables shop)).mp h).port
    have hstandby : portOf noVariables "STANDBY_PORT" "5433" = some ⟨[], 5433⟩ := by decide
    cases hstandby.symm.trans hl
    revert hwanted
    decide
  · unfold upOf at h
    rw [(started_infoOf _ shop).services, (started_infoOf _ wiki).services] at h
    exact not_coexist Iff.rfl h

end LearnPg.Provision.Compose
