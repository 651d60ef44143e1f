import LearnPg.Api.Provision
import LearnPg.Background.AuditLog
import Mathlib.Data.Finset.Insert

/-! What is taken out of the extra fields of an audit record. Values are looked into as
far as they are maps of one type; a list, or a map of another type, is logged as it is. -/
namespace LearnPg.Background.AuditLog

/-- A value of type `any`. `nilMap` and `map` are of type `map[string]any`, which `otherMap`
is not; `scalar` is a number, a boolean or nil. -/
inductive AnyValue (α : Type) where
  | string (text : String)
  | scalar (a : α)
  | slice (n : Nat) (items : Fin n → AnyValue α)
  | nilMap
  | map (keys : Finset String) (value : keys → AnyValue α)
  | otherMap (keys : Finset String) (value : keys → AnyValue α)

def AnyValue.lookup {α : Type} : AnyValue α → String → Option (AnyValue α)
  | .map keys value, k => if h : k ∈ keys then some (value ⟨k, h⟩) else none
  | _, _ => none

def secretKeys : List String :=
  ["password", "passwd", "pwd", "secret", "token", "api_key", "apikey", "dsn", "dsn_raw",
    "connection", "connectionurl"]

section

variable {α : Type} (toLower : String → String)

def isSecret (k : String) : Bool := toLower k ∈ secretKeys

/-- A value that is no `map[string]any` is kept without a call. -/
def stripSecrets : AnyValue α → AnyValue α
  | .map keys value =>
    if keys = ∅ then .nilMap
    else
      .map keys fun k =>
        if isSecret toLower k then .string "<redacted>" else stripSecrets (value k)
  | v => v

/-- Values that differ in nothing but what is stored under secret keys. -/
inductive Agree : AnyValue α → AnyValue α → Prop where
  | string (text : String) : Agree (.string text) (.string text)
  | scalar (a : α) : Agree (.scalar a) (.scalar a)
  | slice {n : Nat} {items items' : Fin n → AnyValue α} (h : ∀ i, Agree (items i) (items' i)) :
      Agree (.slice n items) (.slice n items')
  | nilMap : Agree .nilMap .nilMap
  | map {keys : Finset String} {value value' : keys → AnyValue α}
      (h : ∀ k : keys, isSecret toLower k = false → Agree (value k) (value' k)) :
      Agree (.map keys value) (.map keys value')
  | otherMap {keys : Finset String} {value value' : keys → AnyValue α}
      (h : ∀ k : keys, isSecret toLower k = false → Agree (value k) (value' k)) :
      Agree (.otherMap keys value) (.otherMap keys value')

/-- Nothing that is logged of these fields depends on a value under a secret key. -/
def Hides (fields : AnyValue α) : Prop :=
  ∀ fields', Agree toLower fields fields' →
    stripSecrets toLower fields = stripSecrets toLower fields'

/-- Whatever is not under a secret key is logged as it is. -/
def Keeps (fields : AnyValue α) : Prop :=
  ∀ k v, fields.lookup k = some v → isSecret toLower k = false →
    ∃ v', (stripSecrets toLower fields).lookup k = some v' ∧ Agree toLower v v'

/-- There is no secret key in it. -/
def Secretless : AnyValue α → Prop
  | .slice _ items => ∀ i, Secretless (items i)
  | .map keys value | .otherMap keys value =>
    ∀ k : keys, isSecret toLower k = false ∧ Secretless (value k)
  | _ => True

/-- There is no secret key in a list or in a map of another type. -/
def Covered : AnyValue α → Prop
  | .map keys value => ∀ k : keys, isSecret toLower k = false → Covered (value k)
  | v => Secretless toLower v

/-- There is no empty map in it, as far as it is looked into. -/
def Filled : AnyValue α → Prop
  | .map keys value => keys ≠ ∅ ∧ ∀ k : keys, isSecret toLower k = false → Filled (value k)
  | _ => True

end

section

variable {α : Type} {toLower : String → String} {v w : AnyValue α}

theorem agree_refl (v : AnyValue α) : Agree toLower v v := by
  induction v with
  | string text => exact .string text
  | scalar a => exact .scalar a
  | slice n items ih => exact .slice ih
  | nilMap => exact .nilMap
  | map keys value ih => exact .map fun k _ => ih k
  | otherMap keys value ih => exact .otherMap fun k _ => ih k

theorem agree_update {ι : Type} [DecidableEq ι] {value : ι → AnyValue α} {k : ι}
    (h : Agree toLower (value k) w) (j : ι) :
    Agree toLower (value j) (Function.update value k w j) := by
  by_cases hj : j = k
  · subst hj
    simpa using h
  · rw [Function.update_of_ne hj]
    exact agree_refl (value j)

theorem exists_other (v : AnyValue α) : ∃ w, w ≠ v := by
  by_cases h : v = .string ""
  · exact ⟨.string "-", by simp [h]⟩
  · exact ⟨.string "", Ne.symm h⟩

theorem entries_iff {keys : Finset String} {value : keys → AnyValue α}
    (ih : ∀ k, (∀ w, Agree toLower (value k) w → value k = w) ↔ Secretless toLower (value k)) :
    (∀ value' : keys → AnyValue α,
        (∀ k : keys, isSecret toLower k = false → Agree toLower (value k) (value' k)) →
          value = value') ↔
      ∀ k : keys, isSecret toLower k = false ∧ Secretless toLower (value k) := by
  constructor
  · intro h k
    have hupdate (w : AnyValue α) (hw : isSecret toLower k = false → Agree toLower (value k) w) :
        value k = w := by
      have hsame := h (Function.update value k w) fun j hj => ?_
      · rw [hsame, Function.update_self]
      · by_cases hjk : j = k
        · subst hjk
          rw [Function.update_self]
          exact hw hj
        · rw [Function.update_of_ne hjk]
          exact agree_refl (value j)
    constructor
    · by_contra hsecret
      obtain ⟨w, hw⟩ := exists_other (value k)
      exact hw (hupdate w fun hk => absurd hk hsecret).symm
    · exact (ih k).mp fun w hw => hupdate w fun _ => hw
  · intro h value' hagree
    funext k
    exact (ih k).mpr (h k).2 (value' k) (hagree k (h k).1)

theorem secretless_iff (v : AnyValue α) :
    (∀ w, Agree toLower v w → v = w) ↔ Secretless toLower v := by
  induction v with
  | string | scalar | nilMap =>
    refine iff_of_true (fun w hw => ?_) trivial
    cases hw
    rfl
  | slice n items ih =>
    constructor
    · intro h i
      refine (ih i).mp fun w hw => ?_
      have hsame := h _ (.slice (agree_update hw))
      rw [AnyValue.slice.injEq, heq_eq_eq] at hsame
      rw [hsame.2, Function.update_self]
    · intro h w hw
      cases hw with
      | slice hw =>
        congr
        funext i
        exact (ih i).mpr (h i) _ (hw i)
  | map keys value ih =>
    rw [Secretless, ← entries_iff ih]
    constructor
    · intro h value' hw
      have hsame := h _ (.map hw)
      rw [AnyValue.map.injEq, heq_eq_eq] at hsame
      exact hsame.2
    · intro h w hw
      cases hw with
      | map hw => rw [h _ hw]
  | otherMap keys value ih =>
    rw [Secretless, ← entries_iff ih]
    constructor
    · intro h value' hw
      have hsame := h _ (.otherMap hw)
      rw [AnyValue.otherMap.injEq, heq_eq_eq] at hsame
      exact hsame.2
    · intro h w hw
      cases hw with
      | otherMap hw => rw [h _ hw]

theorem hides_iff (v : AnyValue α) : Hides toLower v ↔ Covered toLower v := by
  induction v with
  | string | scalar | nilMap =>
    refine iff_of_true (fun w hw => ?_) trivial
    cases hw
    rfl
  | slice n items =>
    change _ ↔ Secretless toLower (.slice n items)
    rw [← secretless_iff]
    refine forall₂_congr fun w hw => ?_
    cases hw
    rfl
  | otherMap keys value =>
    change _ ↔ Secretless toLower (.otherMap keys value)
    rw [← secretless_iff]
    refine forall₂_congr fun w hw => ?_
    cases hw
    rfl
  | map keys value ih =>
    constructor
    · intro h k hk
      have hkeys : keys ≠ ∅ := Finset.ne_empty_of_mem k.2
      refine (ih k).mp fun w hw => ?_
      have hsame := h _ (.map fun j _ => agree_update hw j)
      simp only [stripSecrets, if_neg hkeys, AnyValue.map.injEq, heq_eq_eq, true_and] at hsame
      have hk' := congrFun hsame k
      rw [if_neg (by simp [hk]), if_neg (by simp [hk]), Function.update_self] at hk'
      exact hk'
    · intro h w hw
      cases hw with
      | map hw =>
        unfold stripSecrets
        split
        next => rfl
        next =>
          congr
          funext k
          cases hk : isSecret toLower k with
          | true => simp
          | false => simpa using (ih k).mpr (h k hk) _ (hw k hk)

theorem agree_strip_iff (v : AnyValue α) :
    Agree toLower v (stripSecrets toLower v) ↔ Filled toLower v := by
  induction v with
  | string | scalar | slice | nilMap | otherMap => exact iff_of_true (agree_refl _) trivial
  | map keys value ih =>
    unfold stripSecrets Filled
    by_cases hkeys : keys = ∅
    · rw [if_pos hkeys]
      refine iff_of_false nofun fun h => h.1 hkeys
    · rw [if_neg hkeys]
      constructor
      · intro h
        refine ⟨hkeys, fun k hk => (ih k).mp ?_⟩
        cases h with
        | map h => simpa [hk] using h k hk
      · rintro ⟨-, h⟩
        refine .map fun k hk => ?_
        simpa [hk] using (ih k).mpr (h k hk)

theorem lookup_strip {k : String} (hv : v.lookup k = some w) (hk : isSecret toLower k = false) :
    (stripSecrets toLower v).lookup k = some (stripSecrets toLower w) := by
  cases v with
  | map keys value =>
    simp only [AnyValue.lookup, Option.dite_none_right_eq_some] at hv
    obtain ⟨hmem, hv⟩ := hv
    cases hv
    simp [stripSecrets, AnyValue.lookup, Finset.ne_empty_of_mem hmem, hmem, hk]
  | _ => cases hv

theorem keeps_iff (fields : AnyValue α) : Keeps toLower fields ↔
    ∀ k v, fields.lookup k = some v → isSecret toLower k = false → Filled toLower v := by
  unfold Keeps
  refine forall₄_congr fun k v hv hk => ?_
  rw [lookup_strip hv hk]
  simp [agree_strip_iff]

/-- However deep the fields are nested: what is logged hides all secrets exactly if none is in
a list or in a map of another type, and keeps all else exactly if no map in it is empty. -/
theorem secrets_stripped_iff (toLower : String → String) (fields : AnyValue α) :
    Hides toLower fields ∧ Keeps toLower fields ↔ Covered toLower fields ∧
      ∀ k v, fields.lookup k = some v → isSecret toLower k = false → Filled toLower v :=
  and_congr (hides_iff fields) (keeps_iff fields)

theorem log_hides {fields fields' : AnyValue α} (h : Covered toLower fields)
    (hfields : Agree toLower fields fields') (s : State (AnyValue α))
    (action actor method path outcome : String) :
    step (stripSecrets toLower) s (.log action actor method path outcome fields) =
      step (stripSecrets toLower) s (.log action actor method path outcome fields') := by
  simp only [step, (hides_iff fields).mpr h fields' hfields]

end

def users : AnyValue Unit :=
  .map {"users"} fun _ => .slice 1 fun _ => .map {"password"} fun _ => .string "hunter2"

theorem password_logged : ¬ ∀ fields : AnyValue Unit,
    Hides Api.toLower fields ∧ Keeps Api.toLower fields := by
  intro h
  have hcovered := (hides_iff users).mp (h users).1
  have hsecretless := hcovered ⟨"users", by decide⟩ (by decide)
  have hpassword := (hsecretless 0 ⟨"password", by decide⟩).1
  revert hpassword
  decide

end LearnPg.Background.AuditLog
