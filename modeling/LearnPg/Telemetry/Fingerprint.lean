import LearnPg.Basis.Separated
import LearnPg.Basis.Utf8
import LearnPg.Telemetry.History

/-! Which reports are taken for the same bug. What is hashed is three strings with a NUL
between them, and a string may contain one. -/
namespace LearnPg.Telemetry

open LearnPg.Basis LearnPg.Basis.Maps

/-- What `hashEvent` feeds to SHA-256. -/
def RecordInput.fed (r : RecordInput) : List UInt8 :=
  r.url.toUTF8.toList ++ [0] ++ r.message.toUTF8.toList ++ [0] ++ r.stack.toUTF8.toList

def truncated (sha256 : List UInt8 → List UInt8) (bytes : List UInt8) : String :=
  .ofList ((encodeToString (sha256 bytes)).take 16)

/-- The hashes of these reports collide only where the same bytes are hashed. -/
def Collisionless (sha256 : List UInt8 → List UInt8) (reports : Set RecordInput) : Prop :=
  ∀ p ∈ reports, ∀ q ∈ reports, truncated sha256 p.fed = truncated sha256 q.fed → p.fed = q.fed

/-- Wherever there is an event under the hash of `p`, a report `q` is counted there. -/
def Merged (sha256 : List UInt8 → List UInt8) (p q : RecordInput) : Prop :=
  ∀ (s : Store) (e : Event), s.events.lookup (p.hash sha256) = some (some e) →
    ∀ now now' σ, s.record sha256 q now now' σ =
      some { s with events := s.events.insert (p.hash sha256) (some (e.merge q now)) }

def SameBug (p q : RecordInput) : Prop :=
  p.message = q.message ∧ p.stack = q.stack ∧ p.url = q.url

def nul : Char := Char.ofNat 0

def RecordInput.NulFree (r : RecordInput) : Prop :=
  nul ∉ r.url.toList ∧ nul ∉ r.message.toList ∧ nul ∉ r.stack.toList

def RecordInput.parts (r : RecordInput) : List (List Char) :=
  [r.url.toList, r.message.toList, r.stack.toList]

section

variable {sha256 : List UInt8 → List UInt8} {p q : RecordInput}

theorem hash_eq (r : RecordInput) : r.hash sha256 = truncated sha256 r.fed := rfl

theorem utf8_nul : (String.ofList [nul]).toUTF8.toList = [0] := by
  rw [Utf8.toList_eq]
  rfl

theorem fed_eq_iff : q.fed = p.fed ↔ [nul].intercalate q.parts = [nul].intercalate p.parts := by
  have hfed (r : RecordInput) : r.fed =
      (String.ofList ([nul].intercalate r.parts)).toUTF8.toList := by
    simp only [RecordInput.parts, List.intercalate_cons_cons, List.intercalate_singleton,
      String.ofList_append, String.ofList_toList, Utf8.utf8_append, utf8_nul, RecordInput.fed,
      List.append_assoc]
  rw [hfed, hfed, Utf8.utf8_inj, String.ofList_inj]

theorem parts_eq_iff : q.parts = p.parts ↔ SameBug p q := by
  simp only [RecordInput.parts, List.cons.injEq, String.toList_inj, SameBug]
  grind

theorem nulFree_iff : p.NulFree ↔ ∀ part ∈ p.parts, nul ∉ part := by
  simp [RecordInput.NulFree, RecordInput.parts]

/-- The bytes determine the three strings exactly if no NUL is in them. -/
theorem fed_determines_iff : (∀ q : RecordInput, q.fed = p.fed → SameBug p q) ↔ p.NulFree := by
  rw [nulFree_iff, ← Separated.parts_determined_iff (by simp [RecordInput.parts])]
  simp only [fed_eq_iff, ← parts_eq_iff]
  constructor
  · intro h others hlength hjoined
    match others, hlength with
    | [url, message, stack], _ =>
      have hq := h ⟨p.eventID, p.timestamp, p.level, .ofList message, .ofList url, p.userAgent,
        .ofList stack⟩
      simpa [RecordInput.parts] using hq (by simpa [RecordInput.parts] using hjoined)
  · exact fun h q hq => h q.parts rfl hq

theorem merged_iff : Merged sha256 p q ↔ q.hash sha256 = p.hash sha256 := by
  constructor
  · intro hmerged
    by_contra hne
    let s : Store :=
      ⟨"", Finmap.insert (p.hash sha256) (some (newEvent "" p 0 0)) ∅, 0, 0, 0, false⟩
    have hother : s.events.lookup (q.hash sha256) = none :=
      (Finmap.lookup_insert_of_ne _ hne).trans (Finmap.lookup_empty _)
    have hrecord := hmerged s (newEvent "" p 0 0) (Finmap.lookup_insert _) 0 0 (anySorting _)
    rw [record_new hother, enforceCapLocked, if_pos (.inl le_rfl)] at hrecord
    have hevents := congrArg Store.events (Option.some.inj hrecord)
    have hlookup := congrArg (Finmap.lookup (p.hash sha256)) hevents
    rw [Finmap.lookup_insert_of_ne _ (Ne.symm hne), Finmap.lookup_insert,
      Finmap.lookup_insert] at hlookup
    have hcount := congrArg Event.count (Option.some.inj (Option.some.inj hlookup))
    cases hcount
  · intro hsame s e he now now' σ
    rw [← hsame] at he ⊢
    exact record_merge he now now' σ

theorem collisionless_pair (h : q.fed = p.fed) : Collisionless sha256 {p, q} := by
  intro a ha b hb _
  obtain rfl | rfl := ha <;> obtain rfl | rfl := hb <;> simp [h]

/-- Reports are told apart exactly if no NUL is in their strings: only then do the hashed
bytes determine the strings, and only then, where no two inputs collide, are exactly the
reports merged with it that have the same strings. -/
theorem distinct_bugs_iff (sha256 : List UInt8 → List UInt8) (p : RecordInput) :
    ((∀ q : RecordInput, q.fed = p.fed → SameBug p q) ↔ p.NulFree) ∧
    ((∀ reports : Set RecordInput, p ∈ reports → Collisionless sha256 reports →
      ∀ q ∈ reports, (Merged sha256 p q ↔ SameBug p q)) ↔ p.NulFree) := by
  refine ⟨fed_determines_iff, ?_⟩
  rw [← fed_determines_iff]
  constructor
  · intro h q hfed
    have hmerged : Merged sha256 p q := by
      rw [merged_iff, hash_eq, hash_eq, hfed]
    exact (h {p, q} (.inl rfl) (collisionless_pair hfed) q (.inr rfl)).mp hmerged
  · intro h reports hp hcollisionless q hq
    rw [merged_iff]
    constructor
    · intro hhash
      exact h q (hcollisionless q hq p hp hhash)
    · rintro ⟨hmessage, hstack, hurl⟩
      unfold RecordInput.hash
      rw [hmessage, hstack, hurl]

end

def nulInStack : RecordInput :=
  ⟨"e1", 1, "error", "b", "a", "ua/1", .ofList ['c', nul, 'd']⟩

def nulInMessage : RecordInput :=
  ⟨"e2", 2, "error", .ofList ['b', nul, 'c'], "a", "ua/1", "d"⟩

theorem distinct_bugs_merged :
    ¬ ∀ (sha256 : List UInt8 → List UInt8) (reports : Set RecordInput),
      Collisionless sha256 reports → ∀ p ∈ reports, ∀ q ∈ reports,
        (Merged sha256 p q ↔ SameBug p q) := by
  intro h
  have hfed : nulInMessage.fed = nulInStack.fed := by
    rw [fed_eq_iff]
    decide
  have hcollisionless : Collisionless boomDigest {nulInStack, nulInMessage} :=
    collisionless_pair hfed
  have hmerged : Merged boomDigest nulInStack nulInMessage := by
    rw [merged_iff, hash_eq, hash_eq, hfed]
  have hiff := h boomDigest _ hcollisionless nulInStack (.inl rfl) nulInMessage (.inr rfl)
  obtain ⟨hmessage, -, -⟩ := hiff.mp hmerged
  revert hmessage
  decide

end LearnPg.Telemetry
