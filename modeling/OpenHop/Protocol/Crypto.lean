import Mathlib.Data.UInt
import OpenHop.Data.Bytes
import OpenHop.Protocol.Constants

/-! # Encryption

The primitives are parameters: hashes with outputs of 32 bytes, a block cipher
that can be undone, and a key agreement on which both sides agree. Messages are
padded with zeros to whole blocks, encrypted block by block and preceded by two
bytes of authentication code, so decrypting returns the message with its padding.
-/

namespace OpenHop

/-- The primitives the protocol is built on. A seed stands for a local identity. -/
structure Crypto (Seed : Type) where
  sha256 : Bytes → Bytes
  length_sha256 : ∀ d, (sha256 d).length = 32
  hmacSha256 : (key data : Bytes) → Bytes
  length_hmacSha256 : ∀ k d, (hmacSha256 k d).length = 32
  encryptBlock : (key block : Bytes) → Bytes
  decryptBlock : (key block : Bytes) → Bytes
  length_encryptBlock : ∀ k b, b.length = cipherBlockSize →
    (encryptBlock k b).length = cipherBlockSize
  decryptBlock_encryptBlock : ∀ k b, b.length = cipherBlockSize →
    decryptBlock k (encryptBlock k b) = b
  publicKey : Seed → Bytes
  length_publicKey : ∀ s, (publicKey s).length = pubKeySize
  privateKey : Seed → Bytes
  /-- The key agreement, none where the peer's key is not usable. -/
  sharedSecret : (localPrivate peerPublic : Bytes) → Option Bytes
  sharedSecret_comm : ∀ a b,
    sharedSecret (privateKey a) (publicKey b) = sharedSecret (privateKey b) (publicKey a)

def ecb (f : Bytes → Bytes) (d : Bytes) : Bytes :=
  ((Bytes.cut cipherBlockSize (d.length / cipherBlockSize) d).map f).flatten

def zeroPad (d : Bytes) : Bytes :=
  d ++ List.replicate
    ((cipherBlockSize - d.length % cipherBlockSize) % cipherBlockSize) 0

theorem length_zeroPad (d : Bytes) :
    (zeroPad d).length = (d.length + 15) / cipherBlockSize * cipherBlockSize := by
  simp only [zeroPad, cipherBlockSize, List.length_append, List.length_replicate]
  omega

theorem exists_zeroPad_eq (d : Bytes) :
    ∃ zeros < cipherBlockSize, zeroPad d = d ++ List.replicate zeros 0 :=
  ⟨_, Nat.mod_lt _ (by decide), rfl⟩

theorem zeroPad_of_aligned {d : Bytes} {n : ℕ} (h : d.length = n * cipherBlockSize) :
    zeroPad d = d := by
  simp [zeroPad, h]

section

variable {f g : Bytes → Bytes} {d : Bytes} {n : ℕ}

theorem ecb_of_length (h : d.length = n * cipherBlockSize) :
    ecb f d = ((Bytes.cut cipherBlockSize n d).map f).flatten := by
  simp [ecb, h]

theorem length_of_mem_map_cut
    (hf : ∀ b, b.length = cipherBlockSize → (f b).length = cipherBlockSize)
    (h : d.length = n * cipherBlockSize) :
    ∀ r ∈ (Bytes.cut cipherBlockSize n d).map f, r.length = cipherBlockSize := by
  intro r hr
  obtain ⟨b, hb, rfl⟩ := List.mem_map.mp hr
  exact hf b (Bytes.length_of_mem_cut h b hb)

theorem length_ecb (hf : ∀ b, b.length = cipherBlockSize → (f b).length = cipherBlockSize)
    (h : d.length = n * cipherBlockSize) : (ecb f d).length = n * cipherBlockSize := by
  rw [ecb_of_length h, Bytes.length_flatten_of_uniform (length_of_mem_map_cut hf h),
    List.length_map, Bytes.length_cut]

theorem ecb_ecb (hf : ∀ b, b.length = cipherBlockSize → (f b).length = cipherBlockSize)
    (hg : ∀ b, b.length = cipherBlockSize → g (f b) = b) (h : d.length = n * cipherBlockSize) :
    ecb g (ecb f d) = d := by
  rw [ecb_of_length (length_ecb hf h), ecb_of_length h]
  have hlen : ((Bytes.cut cipherBlockSize n d).map f).length = n := by simp
  have hcut := Bytes.cut_flatten (length_of_mem_map_cut hf h)
  rw [hlen] at hcut
  rw [hcut, List.map_map]
  have hid : (Bytes.cut cipherBlockSize n d).map (g ∘ f) = Bytes.cut cipherBlockSize n d := by
    refine (List.map_congr_left fun b hb => ?_).trans (List.map_id _)
    exact hg b (Bytes.length_of_mem_cut h b hb)
  rw [hid, Bytes.flatten_cut h]

end

namespace Crypto

variable {Seed : Type} (c : Crypto Seed)

def aesEncrypt (key data : Bytes) : Bytes := ecb (c.encryptBlock key) (zeroPad data)

/-- Ciphertext that ends within a block is padded for decryption and cut back after it. -/
def aesDecrypt (key ciphertext : Bytes) : Bytes :=
  (ecb (c.decryptBlock key) (zeroPad ciphertext)).take ciphertext.length

def encryptThenMac (keyAes sharedSecret plaintext : Bytes) : Bytes :=
  let ciphertext := c.aesEncrypt keyAes plaintext
  (c.hmacSha256 sharedSecret ciphertext).take cipherMacSize ++ ciphertext

/-- None where the data is too short or the authentication code does not match. -/
def macThenDecrypt (aesKey sharedSecret data : Bytes) : Option Bytes :=
  if data.length ≤ cipherMacSize then none
  else
    let ciphertext := data.drop cipherMacSize
    if data.take cipherMacSize ≠ (c.hmacSha256 sharedSecret ciphertext).take cipherMacSize then none
    else some (c.aesDecrypt aesKey ciphertext)

variable {c}

theorem exists_head_publicKey (s : Seed) : ∃ b, (c.publicKey s).head? = some b := by
  have hlen := c.length_publicKey s
  cases hkey : c.publicKey s with
  | nil =>
    rw [hkey] at hlen
    cases hlen
  | cons b key => exact ⟨b, rfl⟩

theorem length_aesEncrypt (key data : Bytes) :
    (c.aesEncrypt key data).length = (data.length + 15) / cipherBlockSize * cipherBlockSize :=
  length_ecb (c.length_encryptBlock key) (length_zeroPad data)

theorem aesDecrypt_aesEncrypt (key data : Bytes) :
    c.aesDecrypt key (c.aesEncrypt key data) = zeroPad data := by
  have hlen := c.length_aesEncrypt key data
  rw [aesDecrypt, zeroPad_of_aligned hlen, aesEncrypt,
    ecb_ecb (c.length_encryptBlock key) (c.decryptBlock_encryptBlock key) (length_zeroPad data)]
  rw [← aesEncrypt, hlen, ← length_zeroPad, List.take_length]

theorem length_encryptThenMac (key secret data : Bytes) :
    (c.encryptThenMac key secret data).length =
      cipherMacSize + (data.length + 15) / cipherBlockSize * cipherBlockSize := by
  simp only [encryptThenMac, List.length_append, List.length_take, c.length_hmacSha256,
    length_aesEncrypt, cipherMacSize]
  omega

theorem length_macThenDecrypt {key secret data plaintext : Bytes}
    (h : c.macThenDecrypt key secret data = some plaintext) :
    plaintext.length + cipherMacSize ≤ data.length := by
  unfold macThenDecrypt at h
  split at h
  · cases h
  rename_i hlong
  dsimp only at h
  split at h
  · cases h
  obtain rfl := Option.some.inj h
  have hle := List.length_take_le (data.drop cipherMacSize).length
    (ecb (c.decryptBlock key) (zeroPad (data.drop cipherMacSize)))
  rw [List.length_drop] at hle
  rw [aesDecrypt, List.length_drop]
  omega

theorem macThenDecrypt_encryptThenMac (key secret : Bytes) {data : Bytes} (h : data ≠ []) :
    c.macThenDecrypt key secret (c.encryptThenMac key secret data) = some (zeroPad data) := by
  have hpos : 0 < data.length := List.length_pos_iff.mpr h
  have hlen := c.length_encryptThenMac key secret data
  have hmac : ((c.hmacSha256 secret (c.aesEncrypt key data)).take cipherMacSize).length =
      cipherMacSize := by
    simp [c.length_hmacSha256]
  have hlong : ¬ (c.encryptThenMac key secret data).length ≤ cipherMacSize := by
    rw [hlen]
    simp only [cipherMacSize, cipherBlockSize]
    omega
  have hdrop : (c.encryptThenMac key secret data).drop cipherMacSize = c.aesEncrypt key data :=
    List.drop_left' hmac
  have htake : (c.encryptThenMac key secret data).take cipherMacSize =
      (c.hmacSha256 secret (c.aesEncrypt key data)).take cipherMacSize :=
    List.take_left' hmac
  simp only [macThenDecrypt, if_neg hlong, hdrop, htake, ne_eq, not_true_eq_false, if_false,
    aesDecrypt_aesEncrypt]

end Crypto

def fitTo (n : ℕ) (d : Bytes) : Bytes := (d ++ List.replicate n 0).take n

theorem length_fitTo (n : ℕ) (d : Bytes) : (fitTo n d).length = n := by
  simp [fitTo]

def xorBytes (a b : Bytes) : Bytes := List.zipWith (· ^^^ ·) a b

theorem xorBytes_comm (a b : Bytes) : xorBytes a b = xorBytes b a := by
  rw [xorBytes, List.zipWith_comm]
  simp only [UInt8.xor_comm]
  rfl

theorem xorBytes_xorBytes {a k : Bytes} (h : a.length = k.length) :
    xorBytes (xorBytes a k) k = a := by
  induction a generalizing k with
  | nil => rfl
  | cons x a ih =>
    cases k with
    | nil => cases h
    | cons y k =>
      have htail := ih (Nat.succ.inj h)
      simp only [xorBytes, List.zipWith_cons_cons, UInt8.xor_assoc, UInt8.xor_self,
        UInt8.xor_zero] at htail ⊢
      rw [htail]

/-- Sums for the hash, xor for the cipher and the key agreement,
and an authentication code that accepts everything. -/
def xorCrypto : Crypto Bytes where
  sha256 d := List.replicate 32 d.sum
  length_sha256 _ := List.length_replicate
  hmacSha256 _ _ := List.replicate 32 0
  length_hmacSha256 _ _ := List.length_replicate
  encryptBlock k b := xorBytes b (fitTo cipherBlockSize k)
  decryptBlock k b := xorBytes b (fitTo cipherBlockSize k)
  length_encryptBlock k b h := by
    rw [xorBytes, List.length_zipWith, h, length_fitTo, min_self]
  decryptBlock_encryptBlock k b h := xorBytes_xorBytes (h.trans (length_fitTo _ k).symm)
  publicKey := fitTo pubKeySize
  length_publicKey := length_fitTo pubKeySize
  privateKey := fitTo pubKeySize
  sharedSecret a b := some (xorBytes a b)
  sharedSecret_comm a b := congrArg some (xorBytes_comm _ _)

end OpenHop
