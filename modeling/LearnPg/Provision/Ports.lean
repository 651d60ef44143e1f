import LearnPg.Basis.Decimal
import Mathlib.Data.Finset.Basic
import Mathlib.Data.List.Infix
import Mathlib.Data.List.TakeWhile

/-! How the docker provider tells that a port is taken: by what `docker ps` and `netstat`
print. -/
namespace LearnPg.Provision.Ports

/-- What `docker ps` prints for a published port, and what `netstat` prints. -/
structure Commands where
  dockerPs : Nat → String
  netstat : String

def isPortInUse (cmds : Commands) (port : Nat) : Bool :=
  if 0 < (cmds.dockerPs port).length then true
  else decide ((":" ++ toString port).toList <:+: cmds.netstat.toList)

/-- The loop of `findAvailablePort` over as many ports. -/
def findFrom (cmds : Commands) : Nat → Nat → Nat
  | _, 0 => 0
  | port, n + 1 => if isPortInUse cmds port then findFrom cmds (port + 1) n else port

def findAvailablePort (cmds : Commands) (startPort : Nat) : Nat := findFrom cmds startPort 100

def numbersIn : List Char → List (List Char)
  | [] => []
  | c :: cs => if c = ':' then cs.takeWhile Char.isDigit :: numbersIn cs else numbersIn cs

/-- The ports that are listened on, and those of them that containers publish. -/
structure Host where
  listening : Finset Nat
  published : Finset Nat
  published_subset : published ⊆ listening

/-- The commands print the state of the host: the numbers behind the colons of `netstat`'s
lines are the ports that are listened on. -/
structure Prints (host : Host) (cmds : Commands) : Prop where
  docker : ∀ port, 0 < (cmds.dockerPs port).length ↔ port ∈ host.published
  netstat : ∀ digits, digits ≠ [] →
    (digits ∈ numbersIn cmds.netstat.toList ↔ ∃ p ∈ host.listening, digits = Nat.toDigits 10 p)

def leastFree (host : Host) (port : Nat) : Option Nat :=
  (List.range' port 100).find? (· ∉ host.listening)

structure Exact (host : Host) (cmds : Commands) (port : Nat) : Prop where
  inUse : isPortInUse cmds port = true ↔ port ∈ host.listening
  found : findAvailablePort cmds port = (leastFree host port).getD 0

section

variable {host : Host} {cmds : Commands} {port : Nat} {digits text : List Char}

theorem prefix_takeWhile_iff (h : ∀ c ∈ digits, c.isDigit = true) :
    digits <+: text ↔ digits <+: text.takeWhile Char.isDigit := by
  constructor
  · rintro ⟨rest, rfl⟩
    rw [List.takeWhile_append_of_pos h]
    exact List.prefix_append _ _
  · exact fun hle => hle.trans (List.takeWhile_prefix _)

theorem colon_infix_iff (h : ∀ c ∈ digits, c.isDigit = true) :
    ':' :: digits <:+: text ↔ ∃ number ∈ numbersIn text, digits <+: number := by
  induction text with
  | nil => simp [numbersIn]
  | cons c cs ih =>
    rw [List.infix_cons_iff, List.cons_prefix_cons, ih, numbersIn, prefix_takeWhile_iff h]
    by_cases hc : c = ':'
    · simp [hc]
    · simp [hc, Ne.symm hc]

/-- A port is taken for one in use exactly if its number begins that of a listener. -/
theorem isPortInUse_iff (h : Prints host cmds) (port : Nat) :
    isPortInUse cmds port = true ↔
      ∃ p ∈ host.listening, Nat.toDigits 10 port <+: Nat.toDigits 10 p := by
  have htext : (":" ++ toString port).toList = ':' :: Nat.toDigits 10 port := by
    simp [Nat.repr]
  have hnumbers : (∃ number ∈ numbersIn cmds.netstat.toList, Nat.toDigits 10 port <+: number) ↔
      ∃ p ∈ host.listening, Nat.toDigits 10 port <+: Nat.toDigits 10 p := by
    constructor
    · rintro ⟨number, hnumber, hle⟩
      have hne : number ≠ [] := by
        rintro rfl
        exact Nat.toDigits_ne_nil (List.prefix_nil.mp hle)
      obtain ⟨p, hp, rfl⟩ := (h.netstat number hne).mp hnumber
      exact ⟨p, hp, hle⟩
    · rintro ⟨p, hp, hle⟩
      exact ⟨_, (h.netstat _ Nat.toDigits_ne_nil).mpr ⟨p, hp, rfl⟩, hle⟩
  unfold isPortInUse
  rw [htext]
  split
  next hpublished =>
    have hp := host.published_subset ((h.docker port).mp hpublished)
    exact iff_of_true rfl ⟨port, hp, List.prefix_rfl⟩
  next =>
    rw [decide_eq_true_iff, colon_infix_iff Basis.Decimal.isDigit_of_mem]
    exact hnumbers

theorem inUse_of_listening (h : Prints host cmds) (hp : port ∈ host.listening) :
    isPortInUse cmds port = true :=
  (isPortInUse_iff h port).mpr ⟨port, hp, List.prefix_rfl⟩

theorem findFrom_eq (cmds : Commands) (port n : Nat) : findFrom cmds port n =
    ((List.range' port n).find? fun q => !isPortInUse cmds q).getD 0 := by
  induction n generalizing port with
  | zero => rfl
  | succ n ih =>
    rw [findFrom, List.range'_succ, List.find?_cons, ih]
    cases isPortInUse cmds port <;> rfl

theorem find?_eq_iff {α : Type} {p q : α → Bool} (hpq : ∀ x, p x = true → q x = true)
    (l : List α) : l.find? p = l.find? q ↔ ∀ x, l.find? q = some x → p x = true := by
  constructor
  · intro heq x hx
    rw [← heq] at hx
    exact List.find?_some hx
  · intro hall
    cases hq : l.find? q with
    | none =>
      rw [List.find?_eq_none] at hq ⊢
      exact fun x hx hp => hq x hx (hpq x hp)
    | some x =>
      obtain ⟨hqx, pre, post, rfl, hpre⟩ := List.find?_eq_some_iff_append.mp hq
      refine List.find?_eq_some_iff_append.mpr ⟨hall x hq, pre, post, rfl, fun y hy => ?_⟩
      have hnot := hpre y hy
      simp only [Bool.not_eq_true'] at hnot ⊢
      exact Bool.eq_false_iff.mpr fun hp => by simp [hpq y hp] at hnot

/-- Both searches for a port are exact if and only if the least free port is not the
beginning of a port in use. -/
theorem probing_exact_iff (h : Prints host cmds) (port : Nat) :
    Exact host cmds port ↔ ∀ free, leastFree host port = some free →
      ∀ p ∈ host.listening, ¬ Nat.toDigits 10 free <+: Nat.toDigits 10 p := by
  have hfree (q : Nat) : (!isPortInUse cmds q) = true ↔
      ∀ p ∈ host.listening, ¬ Nat.toDigits 10 q <+: Nat.toDigits 10 p := by
    rw [Bool.not_eq_true', Bool.eq_false_iff, ne_eq, isPortInUse_iff h]
    push Not
    rfl
  have hsub (q : Nat) (hq : (!isPortInUse cmds q) = true) :
      decide (q ∉ host.listening) = true := by
    rw [decide_eq_true_iff]
    exact fun hp => (hfree q).mp hq q hp List.prefix_rfl
  have hsearch := find?_eq_iff hsub (List.range' port 100)
  simp only [hfree] at hsearch
  change _ = leastFree host port ↔ ∀ free, leastFree host port = some free → _ at hsearch
  rw [← hsearch]
  constructor
  · rintro ⟨hinUse, hfound⟩
    rw [findAvailablePort, findFrom_eq] at hfound
    rw [hsearch]
    intro free hleast
    rw [← hfree]
    have hnot : free ∉ host.listening := by
      simpa using List.find?_some hleast
    by_cases hport : free = port
    · rw [Bool.not_eq_true', Bool.eq_false_iff, hport, ne_eq, hinUse, ← hport]
      exact hnot
    · have hrange := List.mem_range'_1.mp (List.mem_of_find?_eq_some hleast)
      rw [hleast, Option.getD_some] at hfound
      cases hcode : (List.range' port 100).find? (fun q => !isPortInUse cmds q) with
      | none =>
        rw [hcode, Option.getD_none] at hfound
        omega
      | some q =>
        rw [hcode, Option.getD_some] at hfound
        rw [← hfound]
        exact List.find?_some (p := fun q => !isPortInUse cmds q) hcode
  · intro heq
    refine ⟨⟨fun hinUse => ?_, inUse_of_listening h⟩, ?_⟩
    · by_contra hnot
      have hleast : leastFree host port = some port := by
        unfold leastFree
        rw [List.range'_succ, List.find?_cons_of_pos (by simpa using hnot)]
      rw [hleast] at heq
      have hq := List.find?_some (p := fun q => !isPortInUse cmds q) heq
      rw [hinUse] at hq
      cases hq
    · rw [findAvailablePort, findFrom_eq, heq]

end

def oneServer : Host := ⟨{5432}, ∅, Finset.empty_subset _⟩

def oneServerCommands : Commands :=
  ⟨fun _ => "", "tcp        0      0 0.0.0.0:5432            0.0.0.0:*               LISTEN      -\n"⟩

theorem oneServer_prints : Prints oneServer oneServerCommands := by
  have hnumbers : numbersIn oneServerCommands.netstat.toList = [Nat.toDigits 10 5432, []] := by
    decide
  refine ⟨fun port => by simp [oneServer, oneServerCommands], fun digits hne => ?_⟩
  rw [hnumbers]
  simp [oneServer, hne]

theorem probing_exact_oneServer :
    Exact oneServer oneServerCommands 5432 ↔ ∀ free, leastFree oneServer 5432 = some free →
      ∀ p ∈ oneServer.listening, ¬ Nat.toDigits 10 free <+: Nat.toDigits 10 p :=
  probing_exact_iff oneServer_prints 5432

/-- Nothing listens on port 543, which begins like 5432. -/
theorem port_taken_for_another :
    Prints oneServer oneServerCommands ∧ ¬ Exact oneServer oneServerCommands 543 := by
  refine ⟨oneServer_prints, fun h => ?_⟩
  have hinUse : isPortInUse oneServerCommands 543 = true := by decide
  have hlistening := h.inUse.mp hinUse
  revert hlistening
  decide

end LearnPg.Provision.Ports
