import Mathlib.Data.Nat.Digits.Defs
import Suspend.SaveImage

set_option autoImplicit false

namespace Suspend

/-- The functions of libgcrypt and of `md5.c` that the tools call. An RSA key is a list of named
numbers. An error code `0` is success. -/
structure Crypto where
  cipherOpen : Int
  setkey : Bytes → Int
  setiv : Bytes → Int
  pkOpen : Int
  pkSetkey : Bytes → Int
  pkSetiv : Bytes → Int
  pkCipher : PageCipher
  pkStart : Bytes → Bytes → pkCipher.State
  pkEncrypt : List (Bytes × Nat) → Nat → Except ErrorCode Nat
  pkDecrypt : List (Bytes × Nat) → Nat → Except ErrorCode Nat
  md5 : Bytes → Bytes

def KEY_SIZE : Nat := 16
def CIPHER_BLOCK : Nat := 8
def PK_CIPHER_BLOCK : Nat := 16
def RSA_DATA_SIZE : Nat := 1808
def KEY_DATA_SIZE : Nat := 512
def RSA_FIELDS_PUB : Nat := 2
def ENODATA : Int := 61

/-- The error of `gcry_mpi_print` when the buffer is too small. -/
def GPG_ERR_TOO_SHORT : Int := 66

/-- `"12345678"`. -/
def KEY_TEST_DATA : Bytes := [0x31, 0x32, 0x33, 0x34, 0x35, 0x36, 0x37, 0x38]

/-- Streaming: decryption from the same state gives back what was encrypted, byte for byte, and
moves the state on in the same way. -/
def PageCipher.Streams (cipher : PageCipher) : Prop :=
  ∀ state bytes coded next, cipher.encrypt state bytes = .ok (coded, next) →
    coded.length = bytes.length ∧ cipher.decrypt state coded = .ok (bytes, next)

/-- `struct key_data`. -/
structure KeyData where
  key : Bytes
  ivec : Bytes
  rsa : RSAData
  encryptedKey : EncryptedKey

/-- The string that `strncpy` leaves in a zeroed buffer of this size. -/
def strncpy (width : Nat) (text : Bytes) : Bytes :=
  text.take width ++ List.replicate (width - text.length) 0

/-- `gcry_mpi_print` with `GCRYMPI_FMT_USG`: the bytes, the most significant one first. -/
def mpiPrint (number : Nat) : Bytes := ((Nat.digits 256 number).map UInt8.ofNat).reverse

/-- `gcry_mpi_scan` with `GCRYMPI_FMT_USG`. -/
def mpiScan (bytes : Bytes) : Nat := Nat.ofDigits 256 (bytes.reverse.map UInt8.toNat)

theorem mpiScan_mpiPrint (number : Nat) : mpiScan (mpiPrint number) = number := by
  have digits : ((Nat.digits 256 number).map UInt8.ofNat).map UInt8.toNat =
      Nat.digits 256 number := by
    rw [List.map_map]
    refine (List.map_congr_left fun digit member => ?_).trans (List.map_id _)
    rw [Function.comp_apply, UInt8.toNat_ofNat']
    exact Nat.mod_eq_of_lt (Nat.digits_lt_base (by decide) member)
  rw [mpiScan, mpiPrint, List.reverse_reverse, digits, Nat.ofDigits_digits]

namespace Crypto

variable (crypto : Crypto)

/-- The cipher that protects the private components, set up from the passphrase. -/
def passphraseCipher (passphrase : Bytes) : Except Int crypto.pkCipher.State :=
  let key := crypto.md5 passphrase
  let ivec := strncpy PK_CIPHER_BLOCK passphrase
  if crypto.pkOpen ≠ 0 then .error crypto.pkOpen
  else if crypto.pkSetkey key ≠ 0 then .error (crypto.pkSetkey key)
  else if crypto.pkSetiv ivec ≠ 0 then .error (crypto.pkSetiv ivec)
  else .ok (crypto.pkStart key ivec)

/-- The loop of `keygen.c` over the components from index `index` on: the sizes and the bytes that
follow the first `offset` ones. -/
def writeComponents (index : Nat) (offset : Nat) (state : crypto.pkCipher.State) :
    List Nat → Except Int (List Nat × Bytes)
  | [] => .ok ([], [])
  | number :: rest =>
      let bytes := mpiPrint number
      if RSA_DATA_SIZE - offset < bytes.length then .error GPG_ERR_TOO_SHORT
      else if index < RSA_FIELDS_PUB then
        (writeComponents (index + 1) (offset + bytes.length) state rest).map fun later =>
          (bytes.length :: later.1, bytes ++ later.2)
      else
        match crypto.pkCipher.encrypt state bytes with
        | .error error => .error error
        | .ok (coded, state) =>
            (writeComponents (index + 1) (offset + bytes.length) state rest).map fun later =>
              (bytes.length :: later.1, coded ++ later.2)

/-- `"n"`, `"e"`, `"d"`, `"p"`, `"q"` and `"u"` with their terminating zeros. -/
def rsaKeys : List Bytes := [[0x6e, 0], [0x65, 0], [0x64, 0], [0x70, 0], [0x71, 0], [0x75, 0]]

/-- The key file that `suspend-keygen` writes for an RSA key and a passphrase. -/
def keygen (passphrase : Bytes) (numbers : List Nat) : Except Int RSAData :=
  match crypto.passphraseCipher passphrase with
  | .error error => .error error
  | .ok state =>
      match crypto.pkCipher.encrypt state KEY_TEST_DATA with
      | .error error => .error error
      | .ok (test, _) =>
          (crypto.writeComponents 0 0 state numbers).map fun written =>
            { field := rsaKeys
              size := written.1
              keyTest := test
              data := written.2 ++ List.replicate (RSA_DATA_SIZE - written.2.length) 0 }

/-- The public components of the key file. -/
def publicKey (rsa : RSAData) : List (Bytes × Nat) :=
  let first := rsa.size.getD 0 0
  let second := rsa.size.getD 1 0
  [(rsa.field.getD 0 [], mpiScan (rsa.data.take first)),
    (rsa.field.getD 1 [], mpiScan ((rsa.data.drop first).take second))]

/-- The loop over `/dev/urandom`: the first bytes whose number prints back as it is. -/
def sessionBytes : List Bytes → Option Bytes
  | [] => none
  | bytes :: rest =>
      if bytes.length ≠ KEY_SIZE + CIPHER_BLOCK then none
      else if mpiPrint (mpiScan bytes) = bytes then some bytes
      else sessionBytes rest

/-- `generate_key`: the new `key_data` when it sets `use_RSA`. `file` is what the key file holds,
`random` what the reads from `/dev/urandom` return. -/
def generateKey (file : Option RSAData) (random : List Bytes) : Option KeyData :=
  match file, sessionBytes random with
  | some rsa, some session =>
      match crypto.pkEncrypt (publicKey rsa) (mpiScan session) with
      | .error _ => none
      | .ok sealed =>
          let bytes := mpiPrint sealed
          if KEY_DATA_SIZE < bytes.length then none
          else some
            { key := session.take KEY_SIZE
              ivec := session.drop KEY_SIZE
              rsa := rsa
              encryptedKey :=
                ⟨bytes.length, bytes ++ List.replicate (KEY_DATA_SIZE - bytes.length) 0⟩ }
  | _, _ => none

/-- The loop of `decrypt_key` that asks for the passphrase: the one that passes the key test, or
an error; `none` when it is still asking. -/
def askPassphrase (rsa : RSAData) : List Bytes → Option (Except Int Bytes)
  | [] => none
  | passphrase :: rest =>
      match crypto.passphraseCipher passphrase with
      | .error error => some (.error error)
      | .ok state =>
          match crypto.pkCipher.encrypt state KEY_TEST_DATA with
          | .error error => some (.error error)
          | .ok (out, _) =>
              if out = rsa.keyTest then some (.ok passphrase) else askPassphrase rsa rest

/-- The loop that retrieves the RSA parameters from index `index` on. -/
def readComponents (index : Nat) (state : crypto.pkCipher.State) (data : Bytes) :
    List (Bytes × Nat) → Except Int (List (Bytes × Nat))
  | [] => .ok []
  | (field, size) :: rest =>
      if index < RSA_FIELDS_PUB then
        (readComponents (index + 1) state (data.drop size) rest).map fun later =>
          (field, mpiScan (data.take size)) :: later
      else
        match crypto.pkCipher.decrypt state (data.take size) with
        | .error error => .error error
        | .ok (plain, state) =>
            (readComponents (index + 1) state (data.drop size) rest).map fun later =>
              (field, mpiScan plain) :: later

/-- `decrypt_key`, with the passphrases the user types one after the other. -/
def decryptKey (rsa : RSAData) (key : EncryptedKey) (typed : List Bytes) :
    Option (Except Int (Bytes × Bytes)) :=
  match crypto.askPassphrase rsa typed with
  | none => none
  | some (.error error) => some (.error error)
  | some (.ok passphrase) => some <|
      match crypto.passphraseCipher passphrase with
      | .error error => .error error
      | .ok state =>
          match crypto.readComponents 0 state rsa.data (rsa.field.zip rsa.size) with
          | .error error => .error error
          | .ok numbers =>
              match crypto.pkDecrypt numbers (mpiScan (key.data.take key.size)) with
              | .error error => .error error
              | .ok plain =>
                  let bytes := mpiPrint plain
                  if bytes.length = KEY_SIZE + CIPHER_BLOCK then
                    .ok (bytes.take KEY_SIZE, bytes.drop KEY_SIZE)
                  else .error (-ENODATA)

/-- The numbers are a key pair for messages as long as a session key. -/
def KeyPair (numbers : List Nat) : Prop :=
  ∀ message sealed, message < 256 ^ (KEY_SIZE + CIPHER_BLOCK) →
    crypto.pkEncrypt ((rsaKeys.zip numbers).take 2) message = .ok sealed →
    crypto.pkDecrypt (rsaKeys.zip numbers) sealed = .ok message

variable {crypto}

theorem readComponents_writeComponents (streams : crypto.pkCipher.Streams)
    {numbers : List Nat} (fields : List Bytes) {index offset : Nat}
    {state : crypto.pkCipher.State} {sizes : List Nat} {data : Bytes}
    (written : crypto.writeComponents index offset state numbers = .ok (sizes, data))
    (padding : Bytes) :
    crypto.readComponents index state (data ++ padding) (fields.zip sizes) =
      .ok (fields.zip numbers) := by
  induction numbers generalizing fields index offset state sizes data with
  | nil =>
      cases written
      rw [List.zip_nil_right]
      rfl
  | cons number rest ih =>
      cases fields with
      | nil => rfl
      | cons field fields =>
          simp only [writeComponents] at written
          split at written
          · cases written
          · by_cases isPublic : index < RSA_FIELDS_PUB
            · rw [if_pos isPublic] at written
              cases later : crypto.writeComponents (index + 1) (offset + (mpiPrint number).length)
                  state rest with
              | error error => simp [later, Except.map] at written
              | ok more =>
                  simp only [later, Except.map, Except.ok.injEq, Prod.mk.injEq] at written
                  obtain ⟨rfl, rfl⟩ := written
                  rw [List.zip_cons_cons, readComponents, if_pos isPublic, List.append_assoc,
                    List.drop_left, List.take_left, ih fields later, mpiScan_mpiPrint]
                  rfl
            · rw [if_neg isPublic] at written
              cases answer : crypto.pkCipher.encrypt state (mpiPrint number) with
              | error error => simp [answer] at written
              | ok result =>
                  simp only [answer] at written
                  cases later : crypto.writeComponents (index + 1)
                      (offset + (mpiPrint number).length) result.2 rest with
                  | error error => simp [later, Except.map] at written
                  | ok more =>
                      simp only [later, Except.map, Except.ok.injEq, Prod.mk.injEq] at written
                      obtain ⟨rfl, rfl⟩ := written
                      obtain ⟨length, back⟩ := streams _ _ _ _ answer
                      rw [List.zip_cons_cons, readComponents, if_neg isPublic, List.append_assoc,
                        ← length, List.drop_left, List.take_left, back]
                      dsimp only
                      rw [ih fields later, mpiScan_mpiPrint]
                      rfl

theorem mpiScan_lt (bytes : Bytes) : mpiScan bytes < 256 ^ bytes.length := by
  have bound := Nat.ofDigits_lt_base_pow_length (b := 256) (l := bytes.reverse.map UInt8.toNat)
    (by decide) (by
      intro digit member
      obtain ⟨byte, _, rfl⟩ := List.mem_map.mp member
      exact byte.toNat_lt)
  rwa [List.length_map, List.length_reverse] at bound

theorem sessionBytes_spec {random : List Bytes} {session : Bytes}
    (found : sessionBytes random = some session) :
    session.length = KEY_SIZE + CIPHER_BLOCK ∧ mpiPrint (mpiScan session) = session := by
  induction random with
  | nil => cases found
  | cons bytes rest ih =>
      rw [sessionBytes] at found
      by_cases short : bytes.length = KEY_SIZE + CIPHER_BLOCK
      · rw [if_neg (by simpa using short)] at found
        by_cases prints : mpiPrint (mpiScan bytes) = bytes
        · rw [if_pos prints] at found
          cases found
          exact ⟨short, prints⟩
        · rw [if_neg prints] at found
          exact ih found
      · rw [if_pos short] at found
        cases found

theorem publicKey_written {first second : Nat} {rest : List Nat} {state : crypto.pkCipher.State}
    {sizes : List Nat} {data padding test : Bytes}
    (written : crypto.writeComponents 0 0 state (first :: second :: rest) = .ok (sizes, data)) :
    publicKey ⟨rsaKeys, sizes, test, data ++ padding⟩ =
      (rsaKeys.zip (first :: second :: rest)).take 2 := by
  simp only [writeComponents, RSA_FIELDS_PUB, Nat.zero_add, Nat.one_lt_ofNat, Nat.zero_lt_two,
    ↓reduceIte] at written
  split at written
  · cases written
  · split at written
    · cases written
    · cases later : crypto.writeComponents 2
          ((mpiPrint first).length + (mpiPrint second).length) state rest with
      | error error => simp [later, Except.map] at written
      | ok more =>
          simp only [later, Except.map, Except.ok.injEq, Prod.mk.injEq] at written
          obtain ⟨rfl, rfl⟩ := written
          simp only [publicKey, List.getD_cons_zero, List.getD_cons_succ, List.append_assoc,
            List.take_left, List.drop_left, mpiScan_mpiPrint]
          rfl

theorem askPassphrase_keygen {passphrase : Bytes} {numbers : List Nat} {rsa : RSAData}
    (generated : crypto.keygen passphrase numbers = .ok rsa) (later : List Bytes) :
    crypto.askPassphrase rsa (passphrase :: later) = some (.ok passphrase) := by
  unfold keygen at generated
  cases cipher : crypto.passphraseCipher passphrase with
  | error error => simp [cipher] at generated
  | ok state =>
      cases test : crypto.pkCipher.encrypt state KEY_TEST_DATA with
      | error error => simp [cipher, test] at generated
      | ok out =>
          cases written : crypto.writeComponents 0 0 state numbers with
          | error error => simp [cipher, test, written, Except.map] at generated
          | ok result =>
              simp only [cipher, test, written, Except.map, Except.ok.injEq] at generated
              subst generated
              simp [askPassphrase, cipher, test]

/-- The session key that `generate_key` seals with the key file is the one `decrypt_key` gets out
with the passphrase of the key file. -/
theorem decryptKey_generateKey (streams : crypto.pkCipher.Streams) {numbers : List Nat}
    (pair : crypto.KeyPair numbers) (six : numbers.length = 6) {passphrase : Bytes}
    {rsa : RSAData} (generated : crypto.keygen passphrase numbers = .ok rsa)
    {random : List Bytes} {keyData : KeyData}
    (sealed : crypto.generateKey (some rsa) random = some keyData) (later : List Bytes) :
    crypto.decryptKey keyData.rsa keyData.encryptedKey (passphrase :: later) =
      some (.ok (keyData.key, keyData.ivec)) := by
  have asked := askPassphrase_keygen generated later
  unfold keygen at generated
  cases cipher : crypto.passphraseCipher passphrase with
  | error error => simp [cipher] at generated
  | ok state =>
      cases test : crypto.pkCipher.encrypt state KEY_TEST_DATA with
      | error error => simp [cipher, test] at generated
      | ok out =>
          cases written : crypto.writeComponents 0 0 state numbers with
          | error error => simp [cipher, test, written, Except.map] at generated
          | ok result =>
              simp only [cipher, test, written, Except.map, Except.ok.injEq] at generated
              unfold generateKey at sealed
              cases found : sessionBytes random with
              | none => simp [found] at sealed
              | some session =>
                  simp only [found] at sealed
                  obtain ⟨length, prints⟩ := sessionBytes_spec found
                  cases answer : crypto.pkEncrypt (publicKey rsa) (mpiScan session) with
                  | error error => simp [answer] at sealed
                  | ok number =>
                      simp only [answer] at sealed
                      split at sealed
                      · cases sealed
                      · cases sealed
                        obtain ⟨first, second, rest, rfl⟩ :
                            ∃ first second rest, numbers = first :: second :: rest := by
                          match numbers, six with
                          | first :: second :: rest, _ => exact ⟨first, second, rest, rfl⟩
                        have small : mpiScan session < 256 ^ (KEY_SIZE + CIPHER_BLOCK) := by
                          rw [← length]
                          exact mpiScan_lt session
                        rw [← generated, publicKey_written written] at answer
                        have opened := pair _ _ small answer
                        have components := readComponents_writeComponents streams
                          rsaKeys written
                          (List.replicate (RSA_DATA_SIZE - result.2.length) 0)
                        rw [← generated] at asked ⊢
                        simp only [decryptKey, asked, cipher, components, List.take_left,
                          mpiScan_mpiPrint, opened, prints, length, ↓reduceIte]

end Crypto

end Suspend
