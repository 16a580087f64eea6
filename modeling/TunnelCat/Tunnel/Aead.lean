import TunnelCat.Lib.Bytes

/-!
# The cipher

Frames and datagrams are sealed with `golang.org/x/crypto/chacha20poly1305`.  The cipher is a
parameter of the development: what is used of it is what its package documents, that `Open` inverts
`Seal` for the same key and nonce and that the ciphertext is sixteen bytes longer than the
plaintext.  `nullAead` is a cipher with these properties that can be evaluated.
-/

set_option autoImplicit false

namespace TunnelCat

/-- `chacha20poly1305.KeySize`. -/
def keySize : ℕ := 32

/-- `chacha20poly1305.NonceSize`. -/
def nonceSize : ℕ := 12

/-- The longest plaintext `Seal` accepts. -/
def maxPlaintext : ℕ := 2 ^ 38 - 64

/-- `chacha20poly1305.Overhead`: the length of the tag. -/
def overhead : ℕ := 16

/-- The AEAD the frames and datagrams are sealed with. -/
structure ChaCha20Poly1305 where
  /-- `aead.Seal` for a key, a nonce and a plaintext: ciphertext and tag. -/
  Seal : Bytes → Bytes → Bytes → Bytes
  /-- `aead.Open` for a key, a nonce and what `Seal` produced; `none` if it is not authentic. -/
  Open : Bytes → Bytes → Bytes → Option Bytes
  /-- `Open` inverts `Seal` for the same key and nonce. -/
  open_seal : ∀ key nonce plain, key.length = keySize → nonce.length = nonceSize →
    plain.length ≤ maxPlaintext → Open key nonce (Seal key nonce plain) = some plain
  /-- The ciphertext is as long as the plaintext and the tag together. -/
  length_seal : ∀ key nonce plain, (Seal key nonce plain).length = plain.length + overhead

/-- A key the cipher accepts.  The keys of this repository are 32-byte hashes. -/
def Key : Type := {k : Bytes // k.length = keySize}

/-- An AEAD that encrypts nothing: sixteen zero bytes for a tag, and the plaintext in the clear. -/
def nullAead : ChaCha20Poly1305 where
  Seal _ _ plain := plain ++ List.replicate 16 0
  Open _ _ ct := if ct.drop (ct.length - 16) = List.replicate 16 0 then
    some (ct.take (ct.length - 16)) else none
  open_seal _ _ plain _ _ _ := by simp
  length_seal _ _ plain := by simp [overhead]

/-- The key of thirty-two zero bytes. -/
def zeroKey : Key := ⟨List.replicate 32 0, by decide⟩

end TunnelCat
