import LearnPg.Workspace.Dsn
import LearnPg.Workspace.Places

/-! What of the passwords is in the file after a write, and what a read of it
returns. -/
namespace LearnPg.Workspace.AtRest

open Data Secrets Store Places Dsn

section

variable {s : WorkspaceStore} {w : World} {key : List UInt8} {n stored : Node} {env : Envelope}
  {file file' : File}

theorem writtenAs_cases (hkey : s.encKey = some key) (h : WrittenAs s n stored) :
    (n.password = "" ∨ isEncrypted n.password = true) ∧ stored = n ∨
      n.password ≠ "" ∧ isEncrypted n.password = false ∧ newCipher key = .ok () ∧
        ∃ nonce, stored = { n with password := ciphertext s.crypto key nonce n.password } := by
  unfold WrittenAs at h
  rw [hkey] at h
  obtain ⟨nonce, h⟩ := h
  unfold encryptNode at h
  split at h
  next hkept =>
    cases h
    exact .inl ⟨hkept, rfl⟩
  next hplain =>
    obtain ⟨hne, hplain⟩ := not_or.mp hplain
    obtain ⟨ct, hct, h⟩ := bind_ok.mp h
    cases h
    cases nonce with
    | error err =>
      obtain ⟨-, -, hct⟩ := bind_ok.mp hct
      cases hct
    | ok nonce =>
      obtain ⟨hcipher, rfl⟩ := encryptPassword_ok hct
      exact .inr ⟨hne, Bool.eq_false_iff.mpr hplain, hcipher, nonce, rfl⟩

theorem readNode_plain (h : isEncrypted n.password = false) : readNode s n = n := by
  unfold readNode
  cases s.encKey with
  | none => rfl
  | some key =>
    dsimp only
    unfold decryptNode
    rw [h]
    rfl

/-- Reading a written node yields what reading it before would have. -/
theorem readNode_writtenAs
    (hdecode : ∀ bytes, s.crypto.decodeString (s.crypto.encodeToString bytes) = .ok bytes)
    (hopen : ∀ key, s.encKey = some key → ∀ (nonce : Nonce) plain,
      s.crypto.gcmOpen key nonce.val (s.crypto.gcmSeal key nonce.val plain) = .ok plain)
    (h : WrittenAs s n stored) : readNode s stored = readNode s n := by
  cases hkey : s.encKey with
  | none =>
    unfold WrittenAs at h
    rw [hkey] at h
    rw [h]
  | some key =>
    obtain ⟨-, rfl⟩ | ⟨-, hplain, hcipher, nonce, rfl⟩ := writtenAs_cases hkey h
    · rfl
    · unfold readNode
      rw [hkey]
      dsimp only
      rw [decryptNode_ciphertext hdecode (hopen key hkey nonce _) hcipher rfl]
      unfold decryptNode
      rw [hplain]
      rfl

theorem mapNodes_written {projects written : Slice Project}
    (hdecode : ∀ bytes, s.crypto.decodeString (s.crypto.encodeToString bytes) = .ok bytes)
    (hopen : ∀ key, s.encKey = some key → ∀ (nonce : Nonce) plain,
      s.crypto.gcmOpen key nonce.val (s.crypto.gcmSeal key nonce.val plain) = .ok plain)
    (h : OnNodes (WrittenAs s) projects written) :
    mapNodes (readNode s) written = mapNodes (readNode s) projects :=
  h.mapNodes_eq fun _ _ => readNode_writtenAs hdecode hopen

end

def zeroStore : WorkspaceStore := ⟨zeroCrypto, some zeroKey⟩

/-- No call fails, and the random source yields zeros. -/
def zeros : World := { quiet with nonce := fun _ _ _ => .ok zeroNonce }

def oneNode (dsn : String) : Envelope :=
  ⟨currentWorkspaceSchemaVersion, .of [⟨"p1", "shop", .of [⟨"c1", "main", "streaming", 30, "", "",
    none, .of [⟨"n1", "n1", "10.0.0.1", 5432, "postgres", "secret", "postgres", "physical",
      "standby", "", dsn, none, none, "", "", "", ""⟩]⟩], .of []⟩], .nil⟩

end LearnPg.Workspace.AtRest
