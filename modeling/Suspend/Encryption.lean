import Suspend.RsaKey

set_option autoImplicit false

namespace Suspend

/-- The static variables of `suspend.c` that the cipher is set up from. -/
structure KeyState where
  keyData : KeyData
  useRSA : Bool
  password : Bytes

/-- The error of a cipher that takes a key for a weak one. -/
def GPG_ERR_WEAK_KEY : Int := 43

namespace Crypto

variable (crypto : Crypto)

/-- `encrypt_init`, and the salt added to the initialization vector. -/
def encryptInit (password salt : Bytes) : Bytes × Bytes :=
  (crypto.md5 password, List.zipWith (· ^^^ ·) (strncpy CIPHER_BLOCK password) salt)

/-- Whether `gcry_cipher_setkey` and then `gcry_cipher_setiv` succeed. -/
def setCipher (key ivec : Bytes) : Int :=
  if crypto.setkey key ≠ 0 then crypto.setkey key else crypto.setiv ivec

/-- The key set-up of `write_image`: the error, the header and the variables afterwards. When there
is no error, the cipher is set to the key and the vector in `key_data`. -/
def setupKey (salt : Bytes) (state : KeyState) (header : ImageHeader) :
    Int × ImageHeader × KeyState :=
  if state.useRSA ∧ crypto.setCipher state.keyData.key state.keyData.ivec = 0 then
    (0, { header with
      flags := { header.flags with encrypted := true, useRSA := true }
      rsa := state.keyData.rsa
      key := state.keyData.encryptedKey }, state)
  else
    -- No_RSA, also for an RSA session key that has been rejected
    let initial := crypto.encryptInit state.password salt
    let state :=
      { state with keyData := { state.keyData with key := initial.1, ivec := initial.2 } }
    let header := { header with salt := salt }
    let error := crypto.setCipher initial.1 initial.2
    if error ≠ 0 then (error, header, state)
    else (0, { header with flags := { header.flags with encrypted := true } }, state)

/-- `restore_key`: the key and the vector the cipher is set to. `typed` are the passphrases that
`read_password` returns. -/
def restoreKey (header : ImageHeader) (typed : List Bytes) : Option (Except Int (Bytes × Bytes)) :=
  let answer := if header.flags.useRSA then crypto.decryptKey header.rsa header.key typed
    else typed.head?.map fun password => .ok (crypto.encryptInit password header.salt)
  answer.map fun
    | .error error => .error error
    | .ok (key, ivec) =>
        if crypto.cipherOpen ≠ 0 then .error crypto.cipherOpen
        else if crypto.setCipher key ivec ≠ 0 then .error (crypto.setCipher key ivec)
        else .ok (key, ivec)

/-- The variables as `main` leaves them to `suspend_system`, when `passphrase` is the one that the
user knows: of the key file, or typed at the prompt, which is shown without an RSA key only. -/
inductive Begins (passphrase : Bytes) : KeyState → Prop
  | sealed {numbers : List Nat} {rsa : RSAData} {random : List Bytes} {keyData : KeyData}
      (pair : crypto.KeyPair numbers) (six : numbers.length = 6)
      (generated : crypto.keygen passphrase numbers = .ok rsa)
      (sealed : crypto.generateKey (some rsa) random = some keyData) :
      Begins passphrase ⟨keyData, true, []⟩
  | asked (leftover : KeyData) : Begins passphrase ⟨leftover, false, passphrase⟩

/-- If the save goes ahead encrypted, the passphrase opens the image again, and the key is not
derived from a passphrase that was never asked for. -/
def Recoverable (passphrase salt : Bytes) (state : KeyState) : Prop :=
  let result := crypto.setupKey salt state ImageHeader.zero
  result.1 = 0 → result.2.1.flags.encrypted = true →
    crypto.restoreKey result.2.1 [passphrase] =
        some (.ok (result.2.2.keyData.key, result.2.2.keyData.ivec)) ∧
      (result.2.1.flags.useRSA = false → state.password ≠ [])

/-- So it is for every one of several saves of a process, each with the salt it draws. -/
def AllRecoverable (passphrase : Bytes) : KeyState → List Bytes → Prop
  | _, [] => True
  | state, salt :: rest => crypto.Recoverable passphrase salt state ∧
      AllRecoverable passphrase (crypto.setupKey salt state ImageHeader.zero).2.2 rest

variable {crypto} {passphrase : Bytes}

theorem restoreKey_accepted (opened : crypto.cipherOpen = 0) {header : ImageHeader}
    {typed : List Bytes} {key ivec : Bytes}
    (answer : (if header.flags.useRSA then crypto.decryptKey header.rsa header.key typed
      else typed.head?.map fun password => .ok (crypto.encryptInit password header.salt)) =
        some (.ok (key, ivec)))
    (accepted : crypto.setCipher key ivec = 0) :
    crypto.restoreKey header typed = some (.ok (key, ivec)) := by
  unfold restoreKey
  dsimp only
  rw [answer]
  simp [opened, accepted]

theorem setupKey_asked {state : KeyState} (plain : state.useRSA = false) (salt : Bytes)
    (header : ImageHeader) :
    (crypto.setupKey salt state header).2.2.useRSA = false ∧
      (crypto.setupKey salt state header).2.2.password = state.password := by
  simp only [setupKey, plain, Bool.false_eq_true, false_and, ↓reduceIte]
  split <;> exact ⟨rfl, rfl⟩

theorem recoverable_asked (opened : crypto.cipherOpen = 0) (nonempty : passphrase ≠ [])
    {state : KeyState} (plain : state.useRSA = false) (typed : state.password = passphrase)
    (salt : Bytes) : crypto.Recoverable passphrase salt state := by
  simp only [Recoverable, setupKey, plain, Bool.false_eq_true, false_and, ↓reduceIte, typed]
  by_cases accepted : crypto.setCipher (crypto.encryptInit passphrase salt).1
      (crypto.encryptInit passphrase salt).2 = 0
  · rw [if_neg (by simpa using accepted)]
    exact fun _ _ => ⟨restoreKey_accepted opened rfl accepted, fun _ => nonempty⟩
  · rw [if_pos accepted]
    exact fun success => absurd success accepted

theorem allRecoverable_asked (opened : crypto.cipherOpen = 0) (nonempty : passphrase ≠ [])
    (salts : List Bytes) (state : KeyState) (plain : state.useRSA = false)
    (typed : state.password = passphrase) : crypto.AllRecoverable passphrase state salts := by
  induction salts generalizing state with
  | nil => trivial
  | cons salt rest ih =>
      obtain ⟨plainNext, typedNext⟩ := setupKey_asked plain salt ImageHeader.zero
      exact ⟨recoverable_asked opened nonempty plain typed salt,
        ih _ plainNext (typedNext.trans typed)⟩

theorem setupKey_sealed {state : KeyState} (rsa : state.useRSA = true)
    (accepted : crypto.setCipher state.keyData.key state.keyData.ivec = 0) (salt : Bytes)
    (header : ImageHeader) : crypto.setupKey salt state header =
      (0, { header with
        flags := { header.flags with encrypted := true, useRSA := true }
        rsa := state.keyData.rsa
        key := state.keyData.encryptedKey }, state) := by
  rw [setupKey, if_pos ⟨rsa, accepted⟩]

theorem allRecoverable_sealed (opened : crypto.cipherOpen = 0) (salts : List Bytes)
    (state : KeyState) (rsa : state.useRSA = true)
    (accepted : crypto.setCipher state.keyData.key state.keyData.ivec = 0)
    (unlocks : crypto.decryptKey state.keyData.rsa state.keyData.encryptedKey [passphrase] =
      some (.ok (state.keyData.key, state.keyData.ivec))) :
    crypto.AllRecoverable passphrase state salts := by
  induction salts with
  | nil => trivial
  | cons salt rest ih =>
      rw [AllRecoverable, Recoverable, setupKey_sealed rsa accepted]
      refine ⟨fun _ _ => ⟨restoreKey_accepted opened ?_ accepted, fun impossible => ?_⟩, ih⟩
      · exact unlocks
      · cases impossible

/-- The fallback of an RSA save encrypts under the empty passphrase. -/
theorem setupKey_fallback {state : KeyState} (unasked : state.password = [])
    (rejected : crypto.setCipher state.keyData.key state.keyData.ivec ≠ 0) (salt : Bytes) :
    let initial := crypto.encryptInit [] salt
    (crypto.setupKey salt state ImageHeader.zero).2.2 =
        { state with keyData := { state.keyData with key := initial.1, ivec := initial.2 } } ∧
      ((crypto.setupKey salt state ImageHeader.zero).1 = 0 ↔
        crypto.setCipher initial.1 initial.2 = 0) ∧
      (crypto.setCipher initial.1 initial.2 = 0 →
        (crypto.setupKey salt state ImageHeader.zero).2.1.flags.encrypted = true ∧
        (crypto.setupKey salt state ImageHeader.zero).2.1.flags.useRSA = false) := by
  intro initial
  have shape := fun (condition : state.useRSA = true ∧
    crypto.setCipher state.keyData.key state.keyData.ivec = 0) => rejected condition.2
  rw [setupKey, if_neg shape, unasked]
  by_cases accepted : crypto.setCipher initial.1 initial.2 = 0
  · dsimp only
    rw [if_neg (by simpa using accepted)]
    exact ⟨rfl, by simpa using accepted, fun _ => ⟨rfl, rfl⟩⟩
  · dsimp only
    rw [if_pos accepted]
    exact ⟨rfl, Iff.rfl, fun impossible => absurd impossible accepted⟩

/-- Once the session key has been rejected, every save falls back, and all is well only as long as
the fallback is rejected, too. -/
theorem allRecoverable_rejected (salts : List Bytes) (state : KeyState)
    (unasked : state.password = [])
    (rejected : crypto.setCipher state.keyData.key state.keyData.ivec ≠ 0) :
    crypto.AllRecoverable passphrase state salts ↔ ∀ salt ∈ salts,
      crypto.setCipher (crypto.encryptInit [] salt).1 (crypto.encryptInit [] salt).2 ≠ 0 := by
  induction salts generalizing state with
  | nil => simp [AllRecoverable]
  | cons salt rest ih =>
      obtain ⟨next, success, flags⟩ := setupKey_fallback unasked rejected salt
      by_cases accepted : crypto.setCipher (crypto.encryptInit [] salt).1
          (crypto.encryptInit [] salt).2 = 0
      · refine ⟨fun all => ?_, fun all => absurd accepted (all salt (by simp))⟩
        obtain ⟨encrypted, plain⟩ := flags accepted
        exact absurd unasked ((all.1 (success.mpr accepted) encrypted).2 plain)
      · let fallen : KeyState :=
          { state with keyData := { state.keyData with
              key := (crypto.encryptInit [] salt).1
              ivec := (crypto.encryptInit [] salt).2 } }
        have later := ih fallen unasked accepted
        rw [AllRecoverable, next, later, List.forall_mem_cons]
        refine and_congr_left fun _ => ⟨fun _ => accepted, fun _ => ?_⟩
        intro ahead
        exact absurd (success.mp ahead) accepted

/-- Every encrypted image of a process can be decrypted with the passphrase that the user knows, if
and only if there is no RSA key, or the cipher accepts its session key, or it rejects the fallback
of every save. -/
theorem allRecoverable_iff (crypto : Crypto) (opened : crypto.cipherOpen = 0)
    (streams : crypto.pkCipher.Streams) (passphrase : Bytes) (nonempty : passphrase ≠ [])
    (state : KeyState) (begins : crypto.Begins passphrase state) (salts : List Bytes) :
    crypto.AllRecoverable passphrase state salts ↔
      (state.useRSA = true →
        crypto.setCipher state.keyData.key state.keyData.ivec = 0 ∨ ∀ salt ∈ salts,
          crypto.setCipher (crypto.encryptInit [] salt).1 (crypto.encryptInit [] salt).2 ≠ 0) := by
  cases begins with
  | asked leftover =>
      have all := allRecoverable_asked opened nonempty salts ⟨leftover, false, passphrase⟩ rfl rfl
      refine ⟨fun _ => fun impossible => ?_, fun _ => all⟩
      cases impossible
  | @sealed numbers rsa random keyData pair six generated sealed =>
      by_cases accepted : crypto.setCipher keyData.key keyData.ivec = 0
      · have unlocks := decryptKey_generateKey streams pair six generated sealed []
        have all := allRecoverable_sealed opened salts ⟨keyData, true, []⟩ rfl accepted unlocks
        exact ⟨fun _ _ => Or.inl accepted, fun _ => all⟩
      · rw [allRecoverable_rejected salts ⟨keyData, true, []⟩ rfl accepted]
        exact ⟨fun all _ => Or.inr all, fun condition => (condition rfl).resolve_left accepted⟩

/-- `"secret"`. -/
def secret : Bytes := [0x73, 0x65, 0x63, 0x72, 0x65, 0x74]

def md5Secret : Bytes :=
  [0x5e, 0xbe, 0x22, 0x94, 0xec, 0xd0, 0xe0, 0xf0, 0x8e, 0xab, 0x76, 0x90, 0xd2, 0xa6, 0xee, 0x69]

def md5Empty : Bytes :=
  [0xd4, 0x1d, 0x8c, 0xd9, 0x8f, 0x00, 0xb2, 0x04, 0xe9, 0x80, 0x09, 0x98, 0xec, 0xf8, 0x42, 0x7e]

/-- The session key and vector that `generate_key` reads from `/dev/urandom`. -/
def sessionValue : Bytes := List.replicate (KEY_SIZE + CIPHER_BLOCK) 0x5a

/-- The numbers of a small RSA key. -/
def toyNumbers : List Nat := [3233, 17, 2753, 53, 61, 38]

/-- A library whose cipher takes every key but one, and whose other ciphers are never set up. -/
def rejecting (weak : Bytes) : Crypto where
  cipherOpen := 0
  setkey := fun key => if key = weak then GPG_ERR_WEAK_KEY else 0
  setiv := fun _ => 0
  pkOpen := 0
  pkSetkey := fun _ => 0
  pkSetiv := fun _ => 0
  pkCipher := ⟨Unit, fun state src => .ok (src, state), fun state coded => .ok (coded, state)⟩
  pkStart := fun _ _ => ()
  pkEncrypt := fun _ message => .ok message
  pkDecrypt := fun _ sealed => .ok sealed
  md5 := fun text => if text = [] then md5Empty else md5Secret

/-- A library for which that session key is weak. -/
def weakSession : Crypto := rejecting (sessionValue.take KEY_SIZE)

theorem rejecting_streams (weak : Bytes) : (rejecting weak).pkCipher.Streams := by
  intro state bytes coded next encrypted
  cases encrypted
  exact ⟨rfl, rfl⟩

/-- With a passphrase the image is recoverable, whichever keys the cipher takes. -/
theorem allRecoverable_secret :
    (rejecting []).AllRecoverable secret ⟨⟨[], [], ImageHeader.zero.rsa, ⟨0, []⟩⟩, false, secret⟩
        [List.replicate 8 0] ↔
      (false = true →
        (rejecting []).setCipher [] [] = 0 ∨ ∀ salt ∈ [List.replicate 8 0],
          (rejecting []).setCipher ((rejecting []).encryptInit [] salt).1
            ((rejecting []).encryptInit [] salt).2 ≠ 0) :=
  allRecoverable_iff (rejecting []) rfl (rejecting_streams []) secret (List.cons_ne_nil _ _)
    ⟨⟨[], [], ImageHeader.zero.rsa, ⟨0, []⟩⟩, false, secret⟩ (.asked _) [List.replicate 8 0]

/-- The session key is rejected as weak: the image is encrypted under the empty passphrase, which
nobody has been asked for. -/
theorem weak_session_unrecoverable :
    ∃ rsa keyData, weakSession.keygen secret toyNumbers = .ok rsa ∧
      weakSession.generateKey (some rsa) [sessionValue] = some keyData ∧
      weakSession.Begins secret ⟨keyData, true, []⟩ ∧
      ¬ weakSession.AllRecoverable secret ⟨keyData, true, []⟩ [List.replicate 8 0] := by
  obtain ⟨rsa, generated⟩ : ∃ rsa, weakSession.keygen secret toyNumbers = .ok rsa := by
    have works : (weakSession.keygen secret toyNumbers).isOk = true := by
      decide +kernel
    cases answer : weakSession.keygen secret toyNumbers with
    | error error => simp [answer, Except.isOk, Except.toBool] at works
    | ok rsa => exact ⟨rsa, rfl⟩
  obtain ⟨keyData, sealed, key⟩ : ∃ keyData,
      weakSession.generateKey (some rsa) [sessionValue] = some keyData ∧
        keyData.key = sessionValue.take KEY_SIZE := by
    have found : sessionBytes [sessionValue] = some sessionValue := by decide +kernel
    have short : ¬ KEY_DATA_SIZE < (mpiPrint (mpiScan sessionValue)).length := by decide +kernel
    unfold generateKey
    rw [found]
    simp only [weakSession, rejecting, if_neg short]
    exact ⟨_, rfl, rfl⟩
  refine ⟨rsa, keyData, generated, sealed, .sealed ?_ rfl generated sealed, ?_⟩
  · intro message sealed _ encrypted
    exact encrypted.symm
  · have rejected : weakSession.setCipher keyData.key keyData.ivec ≠ 0 := by
      simp [setCipher, weakSession, rejecting, key, GPG_ERR_WEAK_KEY]
    rw [allRecoverable_rejected [List.replicate 8 0] ⟨keyData, true, []⟩ rfl rejected]
    intro all
    exact absurd (all _ (List.mem_singleton_self _)) (by decide +kernel)

end Crypto

end Suspend
