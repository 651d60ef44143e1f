import LearnPg.Api.Provision
import LearnPg.Basis.Decimal
import LearnPg.Basis.Paths
import LearnPg.Basis.Shell

/-! Where the name of a cluster goes: into the path of a compose file, the path of a data
directory, a line for the shell and the name of a container. -/
namespace LearnPg.Provision.Names
open LearnPg.Basis Basis.Paths Basis.Shell Api

def dots : Dots (List Char) where
  stay part := decide (part = [] ∨ part = ['.'])
  up part := decide (part = ['.', '.'])

/-- `filepath.Clean`. -/
def filepathClean (path : List Char) : List Char :=
  if path.head? = some '/' then
    let parts := clean dots true (path.splitOn '/')
    if parts = [] then ['/'] else parts.flatMap ('/' :: ·)
  else
    let parts := clean dots false (path.splitOn '/')
    if parts = [] then ['.'] else ['/'].intercalate parts

/-- `filepath.Join` of a directory and a name, neither of them empty. -/
def filepathJoin (dir name : String) : String :=
  .ofList (filepathClean (dir.toList ++ '/' :: name.toList))

/-- What `StartReplica` calls the project. -/
def replicaProject (name : String) (unix : Int) : String :=
  "pgv-replica-" ++ name ++ "-" ++ toString unix

/-- The file that `ComposeRunner.Up` writes. -/
def composePath (workDir projectName : String) : String :=
  filepathJoin workDir (projectName ++ ".yml")

/-- The work directory that `NewHandler` passes to `NewDockerReplicationProvider`. -/
def workDir : String := "data"

/-- What `LocalProvider.Start` takes when the spec has no data directory. -/
def localDataDir (name : String) (unixNano : Int) : String :=
  filepathJoin "/var/lib/pgv" (name ++ "-" ++ toString unixNano)

def logFile (dataDir : String) : String := filepathJoin dataDir "postgres.log"

def startArgs (dataDir : String) (port : Int) : List String :=
  ["pg_ctl", "start", "-D", dataDir, "-l", logFile dataDir, "-o", "-p " ++ toString port]

def startLine (dataDir : String) (port : Int) : String :=
  " ".intercalate (startArgs dataDir port)

def containerName (name : String) (unixNano : Int) : String :=
  "pgv-" ++ sanitizeContainerName name ++ "-" ++ toString unixNano

def DirectlyIn (dir path : String) : Prop :=
  ∃ file, Paths.Plain dots file ∧ '/' ∉ file ∧ path.toList = dir.toList ++ '/' :: file

def Inside (dir path : String) : Prop :=
  ∃ parts, parts ≠ [] ∧ (∀ part ∈ parts, Paths.Plain dots part ∧ '/' ∉ part) ∧
    path.toList = dir.toList ++ parts.flatMap ('/' :: ·)

/-- `[a-zA-Z0-9][a-zA-Z0-9_.-]+`. -/
def DockerName (name : String) : Prop :=
  ∃ c rest, name.toList = c :: rest ∧ rest ≠ [] ∧ isAlnum c = true ∧
    ∀ d ∈ rest, (isAlnum d || d ∈ ['_', '.', '-']) = true

/-- The words of the one command that is meant: the directory, the log file and the port are
one each. -/
def startWords (dataDir : String) (port : Int) : List (List Char) :=
  ["pg_ctl", "start", "-D", dataDir, "-l", logFile dataDir, "-o", "-p", toString port].map
    String.toList

structure Contained (name : String) (unix unixNano port : Int) : Prop where
  composeFile : DirectlyIn workDir (composePath workDir (replicaProject name unix))
  dataDir : Inside "/var/lib/pgv" (localDataDir name unixNano)
  container : DockerName (containerName name unixNano)
  command : simpleCommand (startLine (localDataDir name unixNano) port).toList =
    some (startWords (localDataDir name unixNano) port)

/-- The directories that a name leads through, and the name behind them. -/
def dirs (name : String) : List (List Char) := (name.toList.splitOn '/').dropLast

def file (name : String) : List Char :=
  (name.toList.splitOn '/').getLast (List.splitOn_ne_nil '/' _)

def base : List (List Char) := ["var".toList, "lib".toList, "pgv".toList]

/-- The directory that a name leads to from `/var/lib/pgv`. -/
def reached (name : String) : List (List Char) := (dirs name).foldl (push dots true) base

structure Tame (part : List Char) : Prop where
  chars : ∀ c ∈ part, isPlain c = true
  pattern : isPattern (unquoted part) = false

/-- A name that cannot escape. -/
structure Confined (name : String) : Prop where
  /-- Its directories lead back to the work directory. -/
  composeFile : ∀ first more, dirs name = first :: more →
    more.foldl (push dots false) [workDir.toList, "pgv-replica-".toList ++ first] =
      [workDir.toList]
  /-- They stay under the directory for the data. -/
  dataDir : base <+: reached name
  /-- What remains of it has no character of the shell. -/
  command : ∀ part ∈ reached name ++ [file name], Tame part

section

variable {name : String} {unix unixNano port : Int} {part behind : List Char} {c : Char}

theorem toList_toString (n : Int) : ∃ sign digits, (toString n).toList = sign ++ digits ∧
    digits ≠ [] ∧ ∀ c ∈ sign ++ digits, c ∈ "-0123456789".toList := by
  have hdigits (m : Nat) : ∀ c ∈ Nat.toDigits 10 m, c ∈ "-0123456789".toList := fun c hc =>
    List.mem_cons_of_mem '-' (Decimal.mem_digits (Decimal.isDigit_of_mem c hc))
  cases n with
  | ofNat m =>
    exact ⟨[], Nat.toDigits 10 m, Decimal.toList_ofNat m, Nat.toDigits_ne_nil, hdigits m⟩
  | negSucc m =>
    refine ⟨['-'], Nat.toDigits 10 (m + 1), Decimal.toList_negSucc m, Nat.toDigits_ne_nil, ?_⟩
    exact List.forall_mem_cons.mpr ⟨by decide, hdigits (m + 1)⟩

theorem mem_toString {n : Int} (h : c ∈ (toString n).toList) : c ∈ "-0123456789".toList := by
  obtain ⟨sign, digits, heq, -, hall⟩ := toList_toString n
  exact hall c (heq ▸ h)

structure Stamp (behind : List Char) : Prop where
  dash : '-' ∈ behind
  chars : ∀ c ∈ behind, c ∈ "-0123456789.yml".toList

theorem stamp_nano : Stamp ("-" ++ toString unixNano).toList := by
  rw [String.toList_append]
  refine ⟨by simp, fun c hc => ?_⟩
  have hdash : ∀ c ∈ "-".toList, c ∈ "-0123456789.yml".toList :=
    List.all_iff_forall_prop.mp rfl
  have hdigit : ∀ c ∈ "-0123456789".toList, c ∈ "-0123456789.yml".toList :=
    List.all_iff_forall_prop.mp rfl
  obtain hc | hc := List.mem_append.mp hc
  · exact hdash c hc
  · exact hdigit c (mem_toString hc)

theorem stamp_yml : Stamp ("-" ++ toString unix ++ ".yml").toList := by
  rw [String.toList_append]
  refine ⟨List.mem_append_left _ stamp_nano.dash, fun c hc => ?_⟩
  have hyml : ∀ c ∈ ".yml".toList, c ∈ "-0123456789.yml".toList :=
    List.all_iff_forall_prop.mp rfl
  obtain hc | hc := List.mem_append.mp hc
  · exact stamp_nano.chars c hc
  · exact hyml c hc

theorem Stamp.slash (h : Stamp behind) : '/' ∉ behind := fun hmem => by
  have hc := h.chars _ hmem
  revert hc
  decide

theorem Stamp.isPlain (h : Stamp behind) : ∀ c ∈ behind, isPlain c = true := by
  have hall : ∀ c ∈ "-0123456789.yml".toList, Shell.isPlain c = true :=
    List.all_iff_forall_prop.mp rfl
  exact fun c hc => hall c (h.chars c hc)

theorem Stamp.sign (h : Stamp behind) : ∀ l ∈ unquoted behind, l.char ∉ ['*', '?', '[', ']'] := by
  have hall : ∀ c ∈ "-0123456789.yml".toList, c ∉ ['*', '?', '[', ']'] :=
    List.all_iff_forall_prop.mp rfl
  intro l hl
  obtain ⟨c, hc, rfl⟩ := List.mem_map.mp hl
  exact hall c (h.chars c hc)

theorem plain_of_mem (hc : c ∈ part) (hdot : c ≠ '.') : Paths.Plain dots part := by
  unfold Paths.Plain dots
  dsimp only
  rw [decide_eq_false_iff_not, decide_eq_false_iff_not]
  refine ⟨?_, ?_⟩
  · rintro (rfl | rfl)
    · cases hc
    · exact hdot (List.mem_singleton.mp hc)
  · rintro rfl
    simp only [List.mem_cons, List.not_mem_nil, or_false, or_self] at hc
    exact hdot hc

theorem Stamp.plain (h : Stamp behind) (part : List Char) : Paths.Plain dots (part ++ behind) :=
  plain_of_mem (List.mem_append_right part h.dash) (by decide)

theorem split_name (name : String) : name.toList.splitOn '/' = dirs name ++ [file name] :=
  (List.dropLast_append_getLast _).symm

theorem slash_name (name : String) : ∀ part ∈ dirs name ++ [file name], '/' ∉ part :=
  fun _ hmem => sep_notMem_splitOn (split_name name ▸ hmem)

theorem slash_file (name : String) : '/' ∉ file name :=
  slash_name name _ (List.mem_append_right _ List.mem_cons_self)

theorem slash_append {front : List Char} (hfront : '/' ∉ front) (hpart : '/' ∉ part) :
    '/' ∉ front ++ part := by
  simp [hfront, hpart]

/-- The elements of the path of a compose file. -/
def composeDirs (name : String) : List (List Char) :=
  match dirs name with
  | [] => [workDir.toList]
  | first :: more =>
    more.foldl (push dots false) [workDir.toList, "pgv-replica-".toList ++ first]

def composeFile (name : String) (behind : List Char) : List Char :=
  match dirs name with
  | [] => "pgv-replica-".toList ++ file name ++ behind
  | _ => file name ++ behind

theorem slash_composeDirs : ∀ part ∈ composeDirs name, '/' ∉ part := by
  have hall := slash_name name
  unfold composeDirs
  cases hdirs : dirs name with
  | nil => decide
  | cons first more =>
    rw [hdirs, List.forall_mem_append, List.forall_mem_cons] at hall
    intro part hpart
    obtain hpart | hpart := mem_foldl_push hpart
    · obtain rfl | hpart := List.mem_cons.mp hpart
      · decide
      · rw [List.mem_singleton.mp hpart]
        exact slash_append (by decide) hall.1.1
    · exact hall.1.2 part hpart

theorem slash_composeFile (hbehind : Stamp behind) : '/' ∉ composeFile name behind := by
  unfold composeFile
  split
  · exact slash_append (slash_append (by decide) (slash_file name)) hbehind.slash
  · exact slash_append (slash_file name) hbehind.slash

theorem plain_composeFile (hbehind : Stamp behind) : Paths.Plain dots (composeFile name behind) := by
  unfold composeFile
  split
  · exact hbehind.plain _
  · exact hbehind.plain _

theorem clean_compose (hbehind : Stamp behind) :
    clean dots false ((workDir.toList ++ '/' ::
        ("pgv-replica-".toList ++ (name.toList ++ behind))).splitOn '/') =
      composeDirs name ++ [composeFile name behind] := by
  have hplain : Paths.Plain dots (composeFile name behind) := plain_composeFile hbehind
  have hdir : Paths.Plain dots workDir.toList := plain_of_mem (c := 'd') (by decide) (by decide)
  have hsplit : (workDir.toList ++ '/' ::
      ("pgv-replica-".toList ++ (name.toList ++ behind))).splitOn '/' = workDir.toList ::
        (dirs name ++ [file name ++ behind]).modifyHead ("pgv-replica-".toList ++ ·) := by
    rw [List.splitOn_append_cons_self_of_not_mem (by decide), splitOn_prepend (by decide),
      splitOn_append hbehind.slash (split_name name)]
  rw [hsplit]
  unfold composeDirs composeFile at *
  cases hdirs : dirs name with
  | nil =>
    rw [hdirs] at hplain
    rw [List.nil_append, List.modifyHead_cons, ← List.append_assoc]
    exact clean_plain (by simpa using ⟨hdir, hplain⟩)
  | cons first more =>
    rw [hdirs] at hplain
    have hfirst : Paths.Plain dots ("pgv-replica-".toList ++ first) :=
      plain_of_mem (c := 'p') (by simp) (by decide)
    rw [List.cons_append, List.modifyHead_cons]
    unfold clean
    rw [List.foldl_cons, List.foldl_cons, push_plain hdir, push_plain hfirst, List.foldl_append,
      List.foldl_cons, push_plain hplain]
    rfl

theorem toList_composePath (name : String) (unix : Int) :
    (composePath workDir (replicaProject name unix)).toList =
      ['/'].intercalate (composeDirs name ++ [composeFile name
        ("-" ++ toString unix ++ ".yml").toList]) := by
  have htext : (replicaProject name unix ++ ".yml").toList = "pgv-replica-".toList ++
      (name.toList ++ ("-" ++ toString unix ++ ".yml").toList) := by
    simp [replicaProject, String.toList_append]
  have hdata : workDir.toList = ['d', 'a', 't', 'a'] := rfl
  unfold composePath filepathJoin filepathClean
  rw [htext, if_neg (by simp [hdata]), clean_compose stamp_yml, String.toList_ofList]
  dsimp only
  rw [if_neg (by simp)]

/-- The compose file is directly in the work directory exactly when the directories in
the name lead back there. -/
theorem composePath_iff : DirectlyIn workDir (composePath workDir (replicaProject name unix)) ↔
    composeDirs name = [workDir.toList] := by
  unfold DirectlyIn
  rw [toList_composePath]
  constructor
  · rintro ⟨last, -, hlast, heq⟩
    have hsplit := congrArg (List.splitOn '/') heq
    rw [List.splitOn_intercalate '/' _ (by simp), List.splitOn_append_cons_self_of_not_mem
      (by decide), List.splitOn_eq_singleton hlast] at hsplit
    · have hsplit : composeDirs name ++ [composeFile name ("-" ++ toString unix ++ ".yml").toList] =
          [workDir.toList] ++ [last] := hsplit
      exact (List.append_inj' hsplit rfl).1
    · rw [List.forall_mem_append, List.forall_mem_singleton]
      exact ⟨slash_composeDirs, slash_composeFile stamp_yml⟩
  · intro hdirs
    refine ⟨composeFile name ("-" ++ toString unix ++ ".yml").toList,
      plain_composeFile stamp_yml, slash_composeFile stamp_yml, ?_⟩
    rw [hdirs]
    simp

section Rooted

variable {parts : List (List Char)} {text : List Char}

theorem clean_under (hplain : ∀ part ∈ parts, Paths.Plain dots part)
    (hslash : ∀ part ∈ parts, '/' ∉ part) :
    clean dots true ((parts.flatMap ('/' :: ·) ++ '/' :: text).splitOn '/') =
      (text.splitOn '/').foldl (push dots true) parts := by
  have hskip : push dots true [] [] = [] := rfl
  rw [List.splitOn_append_cons_self, splitOn_flatMap hslash]
  unfold clean
  rw [List.cons_append, List.foldl_cons, hskip, List.foldl_append, foldl_push_plain hplain,
    List.nil_append]

theorem toList_join {dir name : String} (hdir : dir.toList = parts.flatMap ('/' :: ·))
    (hne : parts ≠ []) (hplain : ∀ part ∈ parts, Paths.Plain dots part)
    (hslash : ∀ part ∈ parts, '/' ∉ part)
    (hname : (name.toList.splitOn '/').foldl (push dots true) parts ≠ []) :
    (filepathJoin dir name).toList =
      ((name.toList.splitOn '/').foldl (push dots true) parts).flatMap ('/' :: ·) := by
  have hrooted : (dir.toList ++ '/' :: name.toList).head? = some '/' := by
    obtain ⟨part, more, rfl⟩ := List.exists_cons_of_ne_nil hne
    rw [hdir]
    rfl
  unfold filepathJoin filepathClean
  rw [if_pos hrooted, hdir, clean_under hplain hslash, String.toList_ofList]
  dsimp only
  rw [if_neg hname]

theorem isPattern_path (part : List Char) (parts : List (List Char)) :
    isPattern (unquoted (part ++ parts.flatMap ('/' :: ·))) =
      (part :: parts).any fun part => isPattern (unquoted part) := by
  induction parts generalizing part with
  | nil => simp
  | cons next parts ih =>
    have hsplit : unquoted (part ++ (next :: parts).flatMap ('/' :: ·)) = unquoted part ++
        ⟨'/', false⟩ :: unquoted (next ++ parts.flatMap ('/' :: ·)) := by
      simp [unquoted]
    rw [hsplit, isPattern_component, ih]
    rfl

theorem plain_path_iff (hne : parts ≠ []) :
    Shell.Plain (parts.flatMap ('/' :: ·)) ↔ ∀ part ∈ parts, Tame part := by
  obtain ⟨first, more, rfl⟩ := List.exists_cons_of_ne_nil hne
  have hpattern : isPattern (unquoted ((first :: more).flatMap ('/' :: ·))) =
      (first :: more).any fun part => isPattern (unquoted part) := by
    rw [← isPattern_path]
    simp [unquoted, isPattern]
  constructor
  · intro h part hpart
    refine ⟨fun c hc => h.chars c ?_, ?_⟩
    · exact List.mem_flatMap.mpr ⟨part, hpart, List.mem_cons_of_mem _ hc⟩
    · have hnone := h.pattern
      rw [hpattern, List.any_eq_false] at hnone
      simpa using hnone part hpart
  · intro h
    refine ⟨fun c hc => ?_, ⟨'/', rfl, by decide, by decide⟩, ?_⟩
    · obtain ⟨part, hpart, hc⟩ := List.mem_flatMap.mp hc
      obtain rfl | hc := List.mem_cons.mp hc
      · decide
      · exact (h part hpart).chars c hc
    · rw [hpattern, List.any_eq_false]
      intro part hpart
      simp [(h part hpart).pattern]

end Rooted

theorem base_plain : ∀ part ∈ base, Paths.Plain dots part := by
  unfold Paths.Plain
  decide

theorem base_slash : ∀ part ∈ base, '/' ∉ part := by decide

theorem reached_plain : ∀ part ∈ reached name, Paths.Plain dots part :=
  foldl_push_rooted base_plain

theorem reached_slash : ∀ part ∈ reached name, '/' ∉ part := fun part hpart => by
  obtain hpart | hpart := mem_foldl_push hpart
  · exact base_slash part hpart
  · exact slash_name name part (List.mem_append_left _ hpart)

def dataParts (name : String) (unixNano : Int) : List (List Char) :=
  reached name ++ [file name ++ ("-" ++ toString unixNano).toList]

theorem dataParts_plain : ∀ part ∈ dataParts name unixNano, Paths.Plain dots part := by
  unfold dataParts
  rw [List.forall_mem_append, List.forall_mem_singleton]
  exact ⟨reached_plain, stamp_nano.plain _⟩

theorem dataParts_slash : ∀ part ∈ dataParts name unixNano, '/' ∉ part := by
  unfold dataParts
  rw [List.forall_mem_append, List.forall_mem_singleton]
  exact ⟨reached_slash, slash_append (slash_file name) stamp_nano.slash⟩

theorem dataParts_ne : dataParts name unixNano ≠ [] := by
  simp [dataParts]

theorem toList_localDataDir (name : String) (unixNano : Int) :
    (localDataDir name unixNano).toList = (dataParts name unixNano).flatMap ('/' :: ·) := by
  have hdir : "/var/lib/pgv".toList = base.flatMap ('/' :: ·) := by decide
  have htext : (name ++ "-" ++ toString unixNano).toList =
      name.toList ++ ("-" ++ toString unixNano).toList := by
    simp [String.toList_append]
  have hparts : ((name ++ "-" ++ toString unixNano).toList.splitOn '/').foldl
      (push dots true) base = dataParts name unixNano := by
    rw [htext, splitOn_append stamp_nano.slash (split_name name), List.foldl_append,
      List.foldl_cons, push_plain (stamp_nano.plain _)]
    rfl
  unfold localDataDir
  rw [toList_join hdir (by decide) base_plain base_slash (hparts ▸ dataParts_ne), hparts]

theorem toList_logFile (name : String) (unixNano : Int) :
    (logFile (localDataDir name unixNano)).toList =
      (dataParts name unixNano ++ ["postgres.log".toList]).flatMap ('/' :: ·) := by
  have hlog : Paths.Plain dots "postgres.log".toList :=
    plain_of_mem (c := 'p') (by decide) (by decide)
  have hparts : ("postgres.log".toList.splitOn '/').foldl (push dots true)
      (dataParts name unixNano) = dataParts name unixNano ++ ["postgres.log".toList] := by
    rw [List.splitOn_eq_singleton (by decide), List.foldl_cons, push_plain hlog]
    rfl
  unfold logFile
  rw [toList_join (toList_localDataDir name unixNano) dataParts_ne dataParts_plain
    dataParts_slash (by rw [hparts]; simp), hparts]

/-- The data directory is inside `/var/lib/pgv` exactly when the directories in the name
stay there. -/
theorem localDataDir_iff : Inside "/var/lib/pgv" (localDataDir name unixNano) ↔
    base <+: reached name := by
  have hdir : "/var/lib/pgv".toList = base.flatMap ('/' :: ·) := by decide
  unfold Inside
  rw [toList_localDataDir, hdir]
  constructor
  · rintro ⟨parts, hne, hparts, heq⟩
    rw [← List.flatMap_append] at heq
    have hsame := flatMap_injective heq dataParts_slash (List.forall_mem_append.mpr
      ⟨base_slash, fun part hpart => (hparts part hpart).2⟩)
    rw [← List.dropLast_append_getLast hne, ← List.append_assoc] at hsame
    exact ⟨parts.dropLast, (List.append_inj' hsame rfl).1.symm⟩
  · rintro ⟨more, hmore⟩
    refine ⟨more ++ [file name ++ ("-" ++ toString unixNano).toList], by simp, ?_, ?_⟩
    · intro part hpart
      have hmem : part ∈ dataParts name unixNano := by
        unfold dataParts
        rw [← hmore, List.append_assoc]
        exact List.mem_append_right _ hpart
      exact ⟨dataParts_plain part hmem, dataParts_slash part hmem⟩
    · rw [← List.flatMap_append, ← List.append_assoc, hmore]
      rfl

theorem tame_stamped : Tame (file name ++ ("-" ++ toString unixNano).toList) ↔
    Tame (file name) := by
  have hpattern : isPattern (unquoted (file name ++ ("-" ++ toString unixNano).toList)) =
      isPattern (unquoted (file name)) := by
    have hsplit : unquoted (file name ++ ("-" ++ toString unixNano).toList) =
        unquoted (file name) ++ unquoted ("-" ++ toString unixNano).toList := List.map_append
    rw [hsplit, isPattern_append stamp_nano.sign]
  constructor
  · intro h
    exact ⟨fun c hc => h.chars c (List.mem_append_left _ hc), hpattern ▸ h.pattern⟩
  · intro h
    exact ⟨List.forall_mem_append.mpr ⟨h.chars, stamp_nano.isPlain⟩, hpattern ▸ h.pattern⟩

theorem toList_startLine (dataDir : String) (port : Int) :
    (startLine dataDir port).toList = joined (startWords dataDir port) := by
  simp [startLine, startArgs, startWords, joined,
    List.intercalate_cons_cons, List.intercalate_singleton, String.toList_append]

theorem plain_toString (port : Int) : Shell.Plain (toString port).toList := by
  have hchar : ∀ c ∈ "-0123456789".toList,
      Shell.isPlain c = true ∧ c ∉ ['*', '?', '[', ']'] ∧ c ≠ '#' ∧ c ≠ '~' :=
    List.all_iff_forall_prop.mp rfl
  have hall : ∀ c ∈ (toString port).toList, _ := fun c hc => hchar c (mem_toString hc)
  have hpattern : isPattern ([] ++ unquoted (toString port).toList) = false := by
    rw [isPattern_append]
    · rfl
    · intro l hl
      obtain ⟨c, hc, rfl⟩ := List.mem_map.mp hl
      exact (hall c hc).2.1
  obtain ⟨sign, digits, heq, hne, -⟩ := toList_toString port
  obtain ⟨c, cs, hcons⟩ : ∃ c cs, (toString port).toList = c :: cs :=
    List.exists_cons_of_ne_nil (by rw [heq]; simp [hne])
  refine ⟨fun c hc => (hall c hc).1, ⟨c, by rw [hcons]; rfl, ?_⟩, hpattern⟩
  exact (hall c (by rw [hcons]; exact List.mem_cons_self)).2.2

/-- The shell runs the one command exactly when what remains of the name is tame. -/
theorem command_iff : simpleCommand (startLine (localDataDir name unixNano) port).toList =
      some (startWords (localDataDir name unixNano) port) ↔
    ∀ part ∈ reached name ++ [file name], Tame part := by
  have hdir : Shell.Plain (localDataDir name unixNano).toList ↔
      ∀ part ∈ reached name ++ [file name], Tame part := by
    rw [toList_localDataDir, plain_path_iff dataParts_ne]
    unfold dataParts
    rw [List.forall_mem_append, List.forall_mem_append, List.forall_mem_singleton,
      List.forall_mem_singleton, tame_stamped]
  have hlog : Shell.Plain (logFile (localDataDir name unixNano)).toList ↔
      Shell.Plain (localDataDir name unixNano).toList := by
    have htame : Tame "postgres.log".toList := ⟨List.all_iff_forall_prop.mp rfl, by decide⟩
    rw [toList_logFile, toList_localDataDir, plain_path_iff (by simp),
      plain_path_iff dataParts_ne, List.forall_mem_append, List.forall_mem_singleton,
      and_iff_left htame]
  have hwords : ∀ word ∈ ["pg_ctl", "start", "-D", "-l", "-o", "-p"],
      Shell.Plain word.toList := by decide
  simp only [List.forall_mem_cons] at hwords
  obtain ⟨hpgCtl, hstart, hD, hl, ho, hp, hnil⟩ := hwords
  rw [toList_startLine, simpleCommand_joined_iff, ← hdir]
  unfold startWords
  rw [List.forall_mem_map]
  simp only [List.forall_mem_cons]
  constructor
  · intro h
    exact h.2.2.2.1
  · intro h
    exact ⟨hpgCtl, hstart, hD, h, hl, hlog.mpr h, ho, hp, plain_toString port, nofun⟩

theorem mem_sanitized (h : c ∈ (sanitizeContainerName name).toList) :
    (isAlnum c || c ∈ ['_', '.', '-']) = true := by
  have hmapped : ∀ c ∈ name.toList.map fun c =>
      if isAlnum c || c ∈ ['_', '.', '-'] then c else '_',
      (isAlnum c || c ∈ ['_', '.', '-']) = true := by
    intro c hc
    obtain ⟨d, -, rfl⟩ := List.mem_map.mp hc
    split
    next hd => exact hd
    next => decide
  unfold sanitizeContainerName at h
  dsimp only at h
  split at h
  · rw [String.toList_ofList] at h
    exact hmapped c h
  · rw [String.toList_ofList] at h
    obtain rfl | h := List.mem_cons.mp h
    · decide
    obtain rfl | h := List.mem_cons.mp h
    · decide
    · exact hmapped c h

/-- Docker takes the name of every container. -/
theorem docker_containerName (name : String) (unixNano : Int) :
    DockerName (containerName name unixNano) := by
  have hfixed : ∀ c ∈ "gv-".toList, (isAlnum c || c ∈ ['_', '.', '-']) = true :=
    List.all_iff_forall_prop.mp rfl
  have hnumber : ∀ c ∈ "-0123456789".toList, (isAlnum c || c ∈ ['_', '.', '-']) = true :=
    List.all_iff_forall_prop.mp rfl
  refine ⟨'p', "gv-".toList ++ ((sanitizeContainerName name).toList ++
    '-' :: (toString unixNano).toList), ?_, by simp, by decide, fun c hc => ?_⟩
  · simp [containerName, String.toList_append]
  · obtain hc | hc := List.mem_append.mp hc
    · exact hfixed c hc
    obtain hc | hc := List.mem_append.mp hc
    · exact mem_sanitized hc
    obtain rfl | hc := List.mem_cons.mp hc
    · decide
    · exact hnumber c (mem_toString hc)

/-- For every name and all clocks and ports: nothing escapes exactly when the directories
in the name lead back to the work directory, stay in the directory for the data, and
what remains of them and of the name behind them has nothing that the shell takes for
itself. -/
theorem contained_iff (name : String) (unix unixNano port : Int) :
    Contained name unix unixNano port ↔ Confined name := by
  have hcompose : composeDirs name = [workDir.toList] ↔ ∀ first more, dirs name = first :: more →
      more.foldl (push dots false) [workDir.toList, "pgv-replica-".toList ++ first] =
        [workDir.toList] := by
    unfold composeDirs
    cases dirs name with
    | nil => simp
    | cons first more =>
      constructor
      · intro h _ _ heq
        cases heq
        exact h
      · exact fun h => h first more rfl
  constructor
  · intro h
    exact ⟨hcompose.mp (composePath_iff.mp h.composeFile), localDataDir_iff.mp h.dataDir,
      command_iff.mp h.command⟩
  · intro h
    exact ⟨composePath_iff.mpr (hcompose.mpr h.composeFile), localDataDir_iff.mpr h.dataDir,
      docker_containerName name unixNano, command_iff.mpr h.command⟩

theorem confined_of_noSlash (hslash : '/' ∉ name.toList) :
    Confined name ↔ Tame name.toList := by
  have hsplit := List.splitOn_eq_singleton hslash
  have hdirs : dirs name = [] := by
    unfold dirs
    rw [hsplit]
    rfl
  have hfile : file name = name.toList := by
    have hname := split_name name
    rw [hsplit, hdirs] at hname
    exact (List.cons.inj hname).1.symm
  have hbase : ∀ part ∈ base, Tame part := fun part hpart => by
    have hplain : ∀ part ∈ base, Shell.Plain part := by decide
    exact ⟨(hplain part hpart).chars, (hplain part hpart).pattern⟩
  have hreached : reached name = base := by
    unfold reached
    rw [hdirs]
    rfl
  constructor
  · intro h
    rw [← hfile]
    exact h.command _ (List.mem_append_right _ List.mem_cons_self)
  · intro h
    refine ⟨fun _ _ heq => ?_, ?_, ?_⟩
    · rw [hdirs] at heq
      cases heq
    · exact hreached.symm ▸ List.prefix_rfl
    · rw [hreached, hfile, List.forall_mem_append, List.forall_mem_singleton]
      exact ⟨hbase, h⟩

end

section Provider

theorem splitPath_eq (text : List Char) : splitPath text = text.splitOn '/' := by
  induction text with
  | nil => rfl
  | cons c cs ih =>
    rw [splitPath, List.splitOn_cons_eq_if_modifyHead, ih]
    by_cases hc : c = '/'
    · simp [hc]
    · rw [if_neg hc, if_neg (by simpa using hc)]
      cases hsplit : cs.splitOn '/' with
      | nil => exact absurd hsplit (List.splitOn_ne_nil '/' cs)
      | cons part parts => rfl

theorem push_joinPath {parts : List (List Char)} {part : List Char}
    (h : ∀ part ∈ parts, Paths.Plain dots part) : push dots true parts part =
      if part = [] ∨ part = ['.'] then parts
      else if part = ['.', '.'] then parts.dropLast
      else parts ++ [part] := by
  unfold push dots
  simp only [decide_eq_true_eq]
  split
  · rfl
  split
  next hup =>
    split
    next hall =>
      cases hlast : parts.getLast? with
      | none =>
        rw [List.getLast?_eq_none_iff.mp hlast]
        rfl
      | some last =>
        have hplain := (h last (List.mem_of_getLast? hlast)).2
        rw [hlast] at hall
        exact absurd hall (by simpa [dots] using hplain)
    next => rfl
  next => rfl

theorem foldl_joinPath {parts : List (List Char)} (more : List (List Char))
    (h : ∀ part ∈ parts, Paths.Plain dots part) :
    more.foldl (fun parts part =>
      if part = [] ∨ part = ['.'] then parts
      else if part = ['.', '.'] then parts.dropLast
      else parts ++ [part]) parts = more.foldl (push dots true) parts := by
  induction more generalizing parts with
  | nil => rfl
  | cons part more ih =>
    have hstep : ∀ p ∈ [part].foldl (push dots true) parts, Paths.Plain dots p :=
      foldl_push_rooted h
    rw [List.foldl_cons, List.foldl_cons, ← push_joinPath h]
    exact ih hstep

theorem joinPath_eq {dir : String} (h : dir.toList.head? = some '/') (name : String) :
    joinPath dir name = filepathJoin dir name := by
  have hrooted : (dir.toList ++ '/' :: name.toList).head? = some '/' := by
    rw [List.head?_append, h]
    rfl
  unfold joinPath filepathJoin filepathClean
  dsimp only
  rw [if_pos hrooted, splitPath_eq, foldl_joinPath _ (List.forall_mem_nil _)]
  unfold clean
  split
  · rfl
  · rfl

theorem chooseDataDir_eq {spec : InstanceSpec} (h : spec.dataDir = "") :
    Local.chooseDataDir spec = do
      let now ← invoke .unixNano
      return localDataDir spec.name now := by
  unfold Local.chooseDataDir localDataDir
  have hjoin : joinPath "/var/lib/pgv" = filepathJoin "/var/lib/pgv" := funext (joinPath_eq rfl)
  rw [if_pos h, hjoin]

end Provider

/-- The name is accepted and the shell runs a second command; another one leads out of
both directories. -/
theorem name_escapes :
    orDefaultStr (trimSpace "a;reboot;b") "单机集群" = "a;reboot;b" ∧
      ¬ Contained "a;reboot;b" 0 0 5432 ∧
      ¬ DirectlyIn workDir (composePath workDir (replicaProject "a/../../../etc/b" 0)) ∧
      ¬ Inside "/var/lib/pgv" (localDataDir "../../../etc/b" 0) := by
  have htame : ¬ Tame "a;reboot;b".toList := fun h =>
    absurd (h.chars ';' (by decide)) (by decide)
  refine ⟨by decide, fun h => ?_, fun h => ?_, fun h => ?_⟩
  · exact htame (command_iff.mp h.command _ (by decide))
  · exact absurd (composePath_iff.mp h) (by decide)
  · exact absurd (localDataDir_iff.mp h) (by decide)

end LearnPg.Provision.Names
