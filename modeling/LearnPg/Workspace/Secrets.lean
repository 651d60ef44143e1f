import LearnPg.Basis.Base64
import LearnPg.Workspace.Data

/-! Node passwords at rest. AES-GCM and base64 are parameters; what the store
does with them is not. -/
namespace LearnPg.Workspace.Secrets

open Data LearnPg.Basis

def encPrefix : String := "enc:v1:"

def nonceLen : Nat := 12

abbrev Nonce := { bytes : List UInt8 // bytes.length = nonceLen }

/-- `gcm.Seal`, `gcm.Open` and `base64.StdEncoding`. What is sealed is the UTF-8 of a text. -/
structure Crypto where
  gcmSeal : (key nonce : List UInt8) → (plain : String) → List UInt8
  gcmOpen : (key nonce ct : List UInt8) → Except String String
  encodeToString : List UInt8 → String
  decodeString : String → Except String (List UInt8)

/-- `aes.NewCipher` refuses a key of any other size. -/
def newCipher (key : List UInt8) : Except String Unit :=
  if key.length = 16 ∨ key.length = 24 ∨ key.length = 32 then .ok ()
  else .error ("crypto/aes: invalid key size " ++ toString key.length)

def isEncrypted (stored : String) : Bool :=
  encPrefix.toList.isPrefixOf stored.toList

/-- `nonce` is what reading the random source yields. -/
def encryptPassword (crypto : Crypto) (nonce : Except String Nonce) (plain : String) :
    Option (List UInt8) → Except String String
  | none => .ok plain
  | some key => do
    newCipher key
    let nonce ← nonce
    let ct := crypto.gcmSeal key nonce.val plain
    return encPrefix ++ crypto.encodeToString (nonce.val ++ ct)

def decryptPassword (crypto : Crypto) (stored : String) :
    Option (List UInt8) → Except String String
  | none =>
    if isEncrypted stored then
      .error "stored password is encrypted but WORKSPACE_ENCRYPTION_KEY is not set"
    else .ok stored
  | some key =>
    if isEncrypted stored then do
      let raw ← crypto.decodeString (String.ofList (stored.toList.drop encPrefix.length))
      if raw.length < nonceLen then .error "ciphertext too short"
      else do
        newCipher key
        crypto.gcmOpen key (raw.take nonceLen) (raw.drop nonceLen)
    else .ok stored

/-- A password that does not decrypt stays as it is stored. -/
def decryptNode (crypto : Crypto) (key : List UInt8) (n : Node) : Node :=
  if isEncrypted n.password then
    match decryptPassword crypto n.password (some key) with
    | .ok plain => { n with password := plain }
    | .error _ => n
  else n

def decryptNodePasswords (crypto : Crypto) (encKey : Option (List UInt8))
    (projects : Slice Project) : Slice Project :=
  match encKey with
  | none => projects
  | some key =>
    projects.map fun p => { p with clusters := p.clusters.map fun c =>
      { c with nodes := c.nodes.map (decryptNode crypto key) } }

def encryptNode (crypto : Crypto) (key : List UInt8) (nonce : Except String Nonce) (n : Node) :
    Except String Node :=
  if n.password = "" ∨ isEncrypted n.password then .ok n
  else do
    let ct ← encryptPassword crypto nonce n.password (some key)
    return { n with password := ct }

/-- `nonce pi ci ni` is what the random source yields for that node. -/
def encryptNodePasswords (crypto : Crypto) (encKey : Option (List UInt8))
    (nonce : Nat → Nat → Nat → Except String Nonce) (projects : Slice Project) :
    Except String (Slice Project) :=
  match encKey with
  | none => .ok projects
  | some key =>
    projects.mapIdx fun pi p => do
      let clusters ← p.clusters.mapIdx fun ci c => do
        let nodes ← c.nodes.mapIdx fun ni n => encryptNode crypto key (nonce pi ci ni) n
        return { c with nodes }
      return { p with clusters }

/-- What `encryptPassword` returns for a nonce. -/
def ciphertext (crypto : Crypto) (key : List UInt8) (nonce : Nonce) (plain : String) : String :=
  encPrefix ++ crypto.encodeToString (nonce.val ++ crypto.gcmSeal key nonce.val plain)

section

variable {crypto : Crypto} {key : List UInt8} {nonce : Nonce} {plain ct : String}

theorem encryptPassword_ok (h : encryptPassword crypto (.ok nonce) plain (some key) = .ok ct) :
    newCipher key = .ok () ∧ ct = ciphertext crypto key nonce plain := by
  unfold encryptPassword at h
  dsimp only at h
  cases hkey : newCipher key with
  | error err =>
    rw [hkey] at h
    cases h
  | ok =>
    rw [hkey] at h
    cases h
    exact ⟨rfl, rfl⟩

@[simp] theorem isEncrypted_ciphertext :
    isEncrypted (ciphertext crypto key nonce plain) = true := by
  unfold isEncrypted ciphertext
  rw [String.toList_append, List.isPrefixOf_iff_prefix]
  exact List.prefix_append _ _

theorem decryptPassword_ciphertext {key' : List UInt8}
    (hdecode : ∀ bytes, crypto.decodeString (crypto.encodeToString bytes) = .ok bytes) :
    decryptPassword crypto (ciphertext crypto key nonce plain) (some key') =
      newCipher key' >>= fun _ =>
        crypto.gcmOpen key' nonce.val (crypto.gcmSeal key nonce.val plain) := by
  have hdrop : String.ofList ((ciphertext crypto key nonce plain).toList.drop encPrefix.length) =
      crypto.encodeToString (nonce.val ++ crypto.gcmSeal key nonce.val plain) := by
    unfold ciphertext
    rw [String.toList_append, ← String.length_toList, List.drop_left, String.ofList_toList]
  have hlong : ¬ (nonce.val ++ crypto.gcmSeal key nonce.val plain).length < nonceLen := by
    rw [List.length_append, nonce.property]
    omega
  unfold decryptPassword
  dsimp only
  rw [if_pos isEncrypted_ciphertext, hdrop, hdecode]
  change (if _ then _ else _) = _
  rw [if_neg hlong, List.take_left' nonce.property, List.drop_left' nonce.property]

theorem decryptNode_ciphertext {n : Node}
    (hdecode : ∀ bytes, crypto.decodeString (crypto.encodeToString bytes) = .ok bytes)
    (hopen : crypto.gcmOpen key nonce.val (crypto.gcmSeal key nonce.val plain) = .ok plain)
    (hkey : newCipher key = .ok ()) (hn : n.password = ciphertext crypto key nonce plain) :
    decryptNode crypto key n = { n with password := plain } := by
  unfold decryptNode
  rw [hn, if_pos isEncrypted_ciphertext, decryptPassword_ciphertext hdecode, hkey]
  change (match crypto.gcmOpen key nonce.val _ with | .ok plain => _ | .error _ => n) = _
  rw [hopen]

end

def zeroKey : List UInt8 := List.replicate 32 0

def zeroNonce : Nonce := ⟨List.replicate 12 0, rfl⟩

/-- What AES-256-GCM makes of `secret` under the two. -/
def sealedSecret : List UInt8 :=
  [189, 194, 35, 79, 40, 20, 191, 34, 32, 79, 206, 156, 193, 235, 57, 58, 22, 46, 125, 54, 87, 177]

/-- AES-256-GCM on that one vector; any other text it keeps as its bytes. -/
def zeroCrypto : Crypto where
  gcmSeal key nonce plain :=
    if key = zeroKey ∧ nonce = zeroNonce.val ∧ plain = "secret" then sealedSecret
    else 0 :: plain.toUTF8.data.toList
  gcmOpen key nonce ct :=
    if key ≠ zeroKey then .error "cipher: message authentication failed"
    else if nonce = zeroNonce.val ∧ ct = sealedSecret then .ok "secret"
    else match String.fromUTF8? ⟨ct.tail.toArray⟩ with
    | some plain => .ok plain
    | none => .error "cipher: message authentication failed"
  encodeToString bytes := .ofList (Base64.encode bytes)
  decodeString text :=
    match Base64.decode text.toList with
    | some bytes => .ok bytes
    | none => .error "illegal base64 data"

theorem zeroCrypto_decode (bytes : List UInt8) :
    zeroCrypto.decodeString (zeroCrypto.encodeToString bytes) = .ok bytes := by
  unfold zeroCrypto
  dsimp only
  rw [String.toList_ofList, Base64.decode_encode]

theorem zeroCrypto_open (nonce : List UInt8) (plain : String) :
    zeroCrypto.gcmOpen zeroKey nonce (zeroCrypto.gcmSeal zeroKey nonce plain) = .ok plain := by
  by_cases h : nonce = zeroNonce.val ∧ plain = "secret"
  · obtain ⟨rfl, rfl⟩ := h
    rfl
  · have hseal : zeroCrypto.gcmSeal zeroKey nonce plain = 0 :: plain.toUTF8.data.toList :=
      if_neg fun hall => h hall.2
    have hother : ¬ (nonce = zeroNonce.val ∧ 0 :: plain.toUTF8.data.toList = sealedSecret) :=
      fun hall => nomatch hall.2
    have hbytes : String.fromUTF8? ⟨plain.toUTF8.data.toList.toArray⟩ = some plain := by
      rw [Array.toArray_toList]
      exact dif_pos plain.isValidUTF8
    rw [hseal]
    unfold zeroCrypto
    dsimp only
    rw [if_neg (not_not.mpr rfl), if_neg hother, List.tail_cons, hbytes]

theorem zeroCrypto_wrong {key : List UInt8} (h : key ≠ zeroKey) (nonce ct : List UInt8) :
    zeroCrypto.gcmOpen key nonce ct = .error "cipher: message authentication failed" :=
  if_pos h

end LearnPg.Workspace.Secrets
