import Postblox.Lib.Linearization
import Postblox.Lib.Machine
import Postblox.Uuid

/-!
# The encrypted secret file

`FileSecretStore`: the layout of the file, and `put`, `get` and `delete` as the steps they
take between two awaits. The file is only ever replaced by a rename, so a read sees one
version of it.
-/
namespace Postblox.Secrets

open Lib (HistoryEvent LogEntry)

/-! ## The layout -/

def version : UInt8 := 0x01

def saltLen : Nat := 16

def nonceLen : Nat := 12

/-- `BTreeMap<AccountId, String>`. -/
abbrev SecretMap := Finmap fun _ : Uuid => String

inductive SecretError where
  | io
  | crypto (message : String)
  | decode (message : String)
  deriving DecidableEq

/-- What the store takes from other crates: Argon2id with the parameters of the store,
AES-256-GCM, and `serde_json` on the map. -/
structure StoreCrates where
  deriveKey : String → List UInt8 → Except SecretError (List UInt8)
  aeadEncrypt : (key nonce plaintext : List UInt8) → Except String (List UInt8)
  aeadDecrypt : (key nonce ciphertext : List UInt8) → Option (List UInt8)
  toVec : SecretMap → Except String (List UInt8)
  fromSlice : List UInt8 → Except String SecretMap

/-- Decryption inverts encryption; the ciphertext ends in a tag of 16 bytes. -/
structure StoreCrates.Sound (crates : StoreCrates) : Prop where
  inverts : ∀ {key nonce plaintext ciphertext : List UInt8},
    crates.aeadEncrypt key nonce plaintext = .ok ciphertext →
      crates.aeadDecrypt key nonce ciphertext = some plaintext
  tag : ∀ {key nonce plaintext ciphertext : List UInt8},
    crates.aeadEncrypt key nonce plaintext = .ok ciphertext →
      ciphertext.length = plaintext.length + 16

/-- The text of the map is read back. -/
def StoreCrates.ReadsBack (crates : StoreCrates) (map : SecretMap) : Prop :=
  ∀ text, crates.toVec map = .ok text → crates.fromSlice text = .ok map

/-- The two hexadecimal digits of a byte. -/
def hexByte (b : UInt8) : String :=
  String.ofList [Uuid.hexChar (.ofNat 16 (b.toNat / 16)), Uuid.hexChar (.ofNat 16 b.toNat)]

section Layout

variable (crates : StoreCrates) (passphrase : String)

/-- `encrypt` with the salt and the nonce it has drawn. -/
def encrypt (map : SecretMap) (salt : { b : List UInt8 // b.length = saltLen })
    (nonce : { b : List UInt8 // b.length = nonceLen }) : Except SecretError (List UInt8) := do
  let key ← crates.deriveKey passphrase salt.val
  let plaintext ← (crates.toVec map).mapError fun e => .decode s!"serialise map: {e}"
  let ciphertext ←
    (crates.aeadEncrypt key nonce.val plaintext).mapError fun e => .crypto s!"encrypt: {e}"
  return version :: salt.val ++ nonce.val ++ ciphertext

def decrypt (bytes : List UInt8) : Except SecretError SecretMap := do
  if bytes.length < 1 + saltLen + nonceLen + 16 then throw (.decode "file too short")
  if bytes.head? ≠ some version then
    throw (.decode s!"unknown version 0x{hexByte (bytes.headD 0)}")
  let salt := (bytes.drop 1).take saltLen
  let nonce := (bytes.drop (1 + saltLen)).take nonceLen
  let ct := bytes.drop (1 + saltLen + nonceLen)
  let key ← crates.deriveKey passphrase salt
  match crates.aeadDecrypt key nonce ct with
  | none => throw (.crypto "aead authentication failed")
  | some plaintext => (crates.fromSlice plaintext).mapError fun e => .decode s!"plaintext json: {e}"

/-- `read_map` on what is at the path, `none` for no file. -/
def readMap : Option (List UInt8) → Except SecretError SecretMap
  | none => pure ∅
  | some bytes => if bytes.isEmpty then pure ∅ else decrypt crates passphrase bytes

variable {crates passphrase}

theorem encrypt_ok {map : SecretMap} {salt : { b : List UInt8 // b.length = saltLen }}
    {nonce : { b : List UInt8 // b.length = nonceLen }} {bytes : List UInt8}
    (h : encrypt crates passphrase map salt nonce = .ok bytes) :
    ∃ key text ciphertext, crates.deriveKey passphrase salt.val = .ok key ∧
      crates.toVec map = .ok text ∧ crates.aeadEncrypt key nonce.val text = .ok ciphertext ∧
      bytes = version :: salt.val ++ nonce.val ++ ciphertext := by
  unfold encrypt at h
  cases hkey : crates.deriveKey passphrase salt.val with
  | error e => simp [hkey, bind, Except.bind] at h
  | ok key =>
    cases htext : crates.toVec map with
    | error e => simp [hkey, htext, bind, Except.bind, Except.mapError] at h
    | ok text =>
      cases hsealed : crates.aeadEncrypt key nonce.val text with
      | error e => simp [hkey, htext, hsealed, bind, Except.bind, Except.mapError] at h
      | ok ciphertext =>
        simp [hkey, htext, hsealed, bind, Except.bind, Except.mapError, pure, Except.pure] at h
        exact ⟨key, text, ciphertext, rfl, rfl, hsealed, by simp [← h]⟩

/-- What `encrypt` has written is long enough and is read back at the same offsets. -/
theorem decrypt_encrypt (hsound : crates.Sound) {map : SecretMap}
    {salt : { b : List UInt8 // b.length = saltLen }}
    {nonce : { b : List UInt8 // b.length = nonceLen }} {bytes : List UInt8}
    (hmap : crates.ReadsBack map) (h : encrypt crates passphrase map salt nonce = .ok bytes) :
    bytes ≠ [] ∧ decrypt crates passphrase bytes = .ok map := by
  obtain ⟨key, text, ciphertext, hkey, htext, hsealed, rfl⟩ := encrypt_ok h
  obtain ⟨salt, hsalt⟩ := salt
  obtain ⟨nonce, hnonce⟩ := nonce
  simp only at hkey hsealed ⊢
  have htag := hsound.tag hsealed
  have hlen : ¬ (version :: salt ++ nonce ++ ciphertext).length < 1 + saltLen + nonceLen + 16 := by
    simp only [List.cons_append, List.length_cons, List.length_append]
    omega
  have hsaltAt : ((version :: salt ++ nonce ++ ciphertext).drop 1).take saltLen = salt := by
    simp [← hsalt]
  have hnonceAt : ((version :: salt ++ nonce ++ ciphertext).drop (1 + saltLen)).take nonceLen =
      nonce := by
    rw [← hsalt, ← hnonce, Nat.add_comm 1]
    simp
  have hctAt : (version :: salt ++ nonce ++ ciphertext).drop (1 + saltLen + nonceLen) =
      ciphertext := by
    have : 1 + saltLen + nonceLen = (version :: salt ++ nonce).length := by
      simp [hsalt, hnonce]
      omega
    rw [this, List.drop_left]
  refine ⟨by simp, ?_⟩
  unfold decrypt
  rw [if_neg hlen, if_neg (by simp), hsaltAt, hnonceAt, hctAt]
  simp [hkey, hsound.inverts hsealed, hmap text htext, bind, Except.bind, Except.mapError]

end Layout

/-! ## The operations -/

inductive StoreOp where
  | put (id : Uuid) (secret : String)
  | get (id : Uuid)
  | delete (id : Uuid)
  deriving DecidableEq

inductive StoreResult where
  | done
  | value (secret : Option String)
  deriving DecidableEq

/-- The map the store stands for. -/
def secretsObject (map : Uuid → Option String) : StoreOp → (Uuid → Option String) × StoreResult
  | .put id secret => (Function.update map id (some secret), .done)
  | .get id => (map, .value (map id))
  | .delete id => (Function.update map id none, .done)

/-- Where an operation stands: it waits for the lock or, for `get`, for the file; it holds the
lock and waits for the file; it has the map to write, its bytes, the bytes in the temporary
file; or it is about to return. -/
inductive Phase where
  | called (op : StoreOp)
  | locked (op : StoreOp)
  | writing (op : StoreOp) (map : SecretMap)
  | encrypted (op : StoreOp) (map : SecretMap) (payload : List UInt8)
  | staged (op : StoreOp) (map : SecretMap)
  | finished (op : StoreOp) (res : StoreResult)

/-- The file, the temporary file and the lock; `history`, `log` and `written` remember what
was called and returned, what took effect and what was encrypted. -/
structure FileStore where
  file : Option (List UInt8)
  tmp : Option (List UInt8)
  writeLock : Option Nat
  phase : Nat → Option Phase
  next : Nat
  history : List (HistoryEvent Nat StoreOp StoreResult)
  log : List (LogEntry Nat StoreOp StoreResult)
  written : List SecretMap

inductive StoreAction where
  | call (op : StoreOp)
  | lock (n : Nat)
  | read (n : Nat)
  | encrypt (n : Nat) (salt : { b : List UInt8 // b.length = saltLen })
      (nonce : { b : List UInt8 // b.length = nonceLen })
  | writeTmp (n : Nat)
  | writeTmpFails (n : Nat) (left : Option (List UInt8))
  | rename (n : Nat)
  | ioFails (n : Nat)
  | ret (n : Nat)

namespace FileStore

/-- A store on what is at its path. -/
def new (file : Option (List UInt8)) : FileStore where
  file := file
  tmp := none
  writeLock := none
  phase _ := none
  next := 0
  history := []
  log := []
  written := []

def enter (s : FileStore) (n : Nat) (p : Phase) : FileStore :=
  { s with phase := Function.update s.phase n (some p) }

/-- The operation is over and gives its guard back. -/
def leave (s : FileStore) (n : Nat) (e : HistoryEvent Nat StoreOp StoreResult) : FileStore :=
  { s with
    phase := Function.update s.phase n none
    writeLock := if s.writeLock = some n then none else s.writeLock
    history := s.history ++ [e] }

/-- The step at which the operation takes effect. -/
def commit (s : FileStore) (n : Nat) (op : StoreOp) (res : StoreResult) : FileStore :=
  { s.enter n (.finished op res) with log := s.log ++ [⟨n, op, res⟩] }

variable (crates : StoreCrates) (passphrase : String)

/-- After `fs::read`. -/
def afterRead (s : FileStore) (n : Nat) : Option FileStore :=
  match s.phase n, readMap crates passphrase s.file with
  | some (.called (.get id)), .ok map =>
    some (s.commit n (.get id) (.value (map.lookup id)))
  | some (.locked (.put id secret)), .ok map =>
    some (s.enter n (.writing (.put id secret) (map.insert id secret)))
  | some (.locked (.delete id)), .ok map =>
    if (map.lookup id).isSome then some (s.enter n (.writing (.delete id) (map.erase id)))
    else some (s.commit n (.delete id) .done)
  | some (.called (.get _)), .error _ | some (.locked _), .error _ => some (s.leave n (.abort n))
  | _, _ => none

def step (s : FileStore) : StoreAction → Option FileStore
  | .call op => some { s.enter s.next (.called op) with
      next := s.next + 1, history := s.history ++ [.call s.next op] }
  | .lock n =>
    match s.phase n, s.writeLock with
    | some (.called (.put id secret)), none =>
      some { s.enter n (.locked (.put id secret)) with writeLock := some n }
    | some (.called (.delete id)), none =>
      some { s.enter n (.locked (.delete id)) with writeLock := some n }
    | _, _ => none
  | .read n => s.afterRead crates passphrase n
  | .encrypt n salt nonce =>
    match s.phase n with
    | some (.writing op map) =>
      match Secrets.encrypt crates passphrase map salt nonce with
      | .ok payload => some { s.enter n (.encrypted op map payload) with written := map :: s.written }
      | .error _ => some (s.leave n (.abort n))
    | _ => none
  | .writeTmp n =>
    match s.phase n with
    | some (.encrypted op map payload) => some { s.enter n (.staged op map) with tmp := some payload }
    | _ => none
  | .writeTmpFails n left =>
    match s.phase n with
    | some (.encrypted _ _ _) => some { s.leave n (.abort n) with tmp := left }
    | _ => none
  | .rename n =>
    match s.phase n, s.tmp with
    | some (.staged op _), some payload =>
      some { s.commit n op .done with file := some payload, tmp := none }
    | some (.staged _ _), none => some (s.leave n (.abort n))
    | _, _ => none
  | .ioFails n =>
    -- a read, `create_dir_all` or the rename
    match s.phase n with
    | some (.called (.get _)) | some (.locked _) | some (.writing _ _) | some (.staged _ _) =>
      some (s.leave n (.abort n))
    | _ => none
  | .ret n =>
    match s.phase n with
    | some (.finished _ res) => some (s.leave n (.ret n res))
    | _ => none

end FileStore

end Postblox.Secrets
