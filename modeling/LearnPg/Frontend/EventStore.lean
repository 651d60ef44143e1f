import LearnPg.Basis.Runs
import LearnPg.Basis.Windows

/-! The events that the frontend keeps, of all that it has received. -/
namespace LearnPg.Frontend.EventStore

open Basis.Runs Basis.Windows

section

variable {ε : Type}

def maxEvents : Nat := 1000

/-- `xs.slice(start)`; a negative start counts from the end. -/
def slice (start : Int) (xs : List ε) : List ε :=
  xs.drop (if start < 0 then (xs.length + start).toNat else start.toNat)

inductive Label (ε : Type) where
  | addEvent (event : ε)
  | clearEvents
  | setEvents (events : List ε)

def step (events : List ε) : Label ε → List ε
  | .addEvent event => slice (-maxEvents + 1) events ++ [event]
  | .clearEvents => []
  | .setEvents events => slice (-maxEvents) events

def useEventStore : Machine (List ε) (Label ε) where
  init := []
  step events label := some (step events label)

/-- What a store without a limit would hold: the last list set, and all events added since. -/
def received (past : List ε) : Label ε → List ε
  | .addEvent event => past ++ [event]
  | .clearEvents => []
  | .setEvents events => events

def history (labels : List (Label ε)) : List ε := labels.foldl received []

theorem slice_neg (n : Nat) (h : 0 < n) (xs : List ε) : slice (-n) xs = xs.rtake n := by
  unfold slice List.rtake
  rw [if_pos (by omega)]
  congr 1
  omega

/-- A step on the events kept keeps the last of those that there would be. -/
theorem step_rtake (past : List ε) (label : Label ε) :
    step (past.rtake maxEvents) label = (received past label).rtake maxEvents := by
  cases label with
  | addEvent event =>
    change slice (-(999 : Nat)) (past.rtake 1000) ++ [event] = (past ++ [event]).rtake (999 + 1)
    rw [slice_neg 999 (by decide), rtake_rtake, List.rtake_concat_succ]
    rfl
  | clearEvents => exact (List.rtake_nil _).symm
  | setEvents events => exact slice_neg maxEvents (by decide) events

/-- The store holds the end of the history, all of it up to the limit. -/
theorem events_eq_rtake (labels : List (Label ε)) :
    useEventStore.run labels = some ((history labels).rtake maxEvents) ∧
      ((history labels).rtake maxEvents).length = min maxEvents (history labels).length ∧
      (history labels).rtake maxEvents <:+ history labels := by
  refine ⟨?_, ?_, List.drop_suffix _ _⟩
  · induction labels using List.reverseRecOn with
    | nil => exact congrArg some (List.rtake_nil _).symm
    | append_singleton labels label ih =>
      have hhistory : history (labels ++ [label]) = received (history labels) label :=
        List.foldl_concat ..
      rw [run_concat ih, hhistory]
      exact congrArg some (step_rtake (history labels) label)
  · rw [List.rtake, List.length_drop]
    omega

end

end LearnPg.Frontend.EventStore
