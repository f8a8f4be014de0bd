import Mathlib.Logic.Basic

set_option autoImplicit false

namespace Suspend

abbrev Bytes := List UInt8

/-- The ten bytes of a swap signature. -/
abbrev Signature := Vector UInt8 10

/-- `"ULSUSPEND"` with its terminating zero. -/
def SWSUSP_SIG : Signature := #v[0x55, 0x4c, 0x53, 0x55, 0x53, 0x50, 0x45, 0x4e, 0x44, 0]

/-- `"SWAP-SPACE"`. -/
def SWAP_SPACE : Signature := #v[0x53, 0x57, 0x41, 0x50, 0x2d, 0x53, 0x50, 0x41, 0x43, 0x45]

/-- `"SWAPSPACE2"`. -/
def SWAPSPACE2 : Signature := #v[0x53, 0x57, 0x41, 0x50, 0x53, 0x50, 0x41, 0x43, 0x45, 0x32]

/-- `struct swsusp_header`: the last 28 bytes of the swap header page. -/
structure SwsuspHeader where
  image : Int
  origSig : Signature
  sig : Signature
deriving DecidableEq

/-- `struct RSA_data`: the key file, with the private components encrypted. -/
structure RSAData where
  field : List Bytes
  size : List Nat
  keyTest : Bytes
  data : Bytes
deriving DecidableEq

/-- `struct encrypted_key`. -/
structure EncryptedKey where
  size : Nat
  data : Bytes
deriving DecidableEq

/-- The `flags` of the image header, one field a bit. -/
structure ImageFlags where
  checksum : Bool := false
  compressed : Bool := false
  encrypted : Bool := false
  useRSA : Bool := false
  platformSuspend : Bool := false
deriving DecidableEq

/-- `struct image_header_info`, less the time it took to write the image. -/
structure ImageHeader where
  pages : Nat
  flags : ImageFlags
  mapStart : Int
  imageDataSize : Int
  checksum : Bytes
  salt : Bytes
  rsa : RSAData
  key : EncryptedKey
  resumePause : Int
deriving DecidableEq

/-- The header page after `memset(header, 0, page_size)`. -/
def ImageHeader.zero : ImageHeader where
  pages := 0
  flags := {}
  mapStart := 0
  imageDataSize := 0
  checksum := List.replicate 16 0
  salt := List.replicate 8 0
  rsa := ⟨List.replicate 6 [0, 0], List.replicate 6 0, List.replicate 8 0, List.replicate 1808 0⟩
  key := ⟨0, List.replicate 512 0⟩
  resumePause := 0

end Suspend
