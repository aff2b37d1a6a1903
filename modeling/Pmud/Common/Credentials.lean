import Mathlib.Data.List.OfFn
import Pmud.Common.PmudSecurity
import Pmud.HashLibrary.SHA256

/-! # Credentials and their hashes

`hash_credentials` of `common/pmud_security.h` with the SHA-256 of the vendored
library, and what the text that is recorded tells about the password.
-/

namespace Pmud.Security

open Foundation HashLibrary

/-- What is hashed for a password. -/
def salted (passphrase salt : ByteString) : ByteString := passphrase ++ text ":" ++ salt

/-- `hash_credentials`, with the object on memory that held anything. -/
def hashCredentialsOn (host : ByteOrder) (memory : SHA256.method.State)
    (extra : Vector UInt8 blockBytes) (passphrase salt : ByteString) : Option CredentialHash :=
  (SHA256.method.answer host (SHA256.method.construct memory)
      (.apply (salted passphrase salt), extra)).bind fun (_, answers) =>
    match answers with
    | [.text hash] => some ⟨0, salt, hash⟩
    | _ => none

/-- SHA-256 as the library prints it. -/
def sha256Hex (message : ByteString) : ByteString := hex (SHA256.standard.digest message)

example : ["p", " "].map (fun passphrase =>
      sampleSha256 (salted (text passphrase) (text "00000000"))) =
    ["p", " "].map fun passphrase =>
      hex (SHA256.method.digest (salted (text passphrase) (text "00000000"))) := by
  decide +kernel

theorem hashCredentialsOn_eq_some (host : ByteOrder) (memory : SHA256.method.State)
    (extra : Vector UInt8 blockBytes) (passphrase salt : ByteString) :
    hashCredentialsOn host memory extra passphrase salt =
      some (hashCredentials sha256Hex passphrase salt) := by
  have fresh := @HashMethod.reset_represents SHA256.method host memory
  rcases HashMethod.answer_eq_some fresh (.apply (salted passphrase salt), extra) with
    ⟨next, answered, -⟩
  have same := @HashMethod.digest_congr 8 .big SHA256.method.initial SHA256.mix SHA256.compress
    (fun hash _ full => SHA256.mix_eq hash full) (salted passphrase salt)
  rw [hashCredentialsOn, HashMethod.construct, answered, Option.bind_some]
  simp only [HashMethod.service]
  rw [hashCredentials, sha256Hex]
  exact congrArg (fun digest => some (CredentialHash.mk 0 salt (hex digest))) same

/-- Two messages under one hash. -/
def Collision (first second : ByteString) : Prop :=
  first ≠ second ∧ SHA256.standard.digest first = SHA256.standard.digest second

theorem dec2hex_injective : ∀ first second : Fin 16,
    dec2hex first.val = dec2hex second.val → first = second := by decide

theorem hexDigits_injective {first second : UInt8} (same : hexDigits first = hexDigits second) :
    first = second := by
  have low : ∀ byte : UInt8, (byte &&& (15 : UInt8)).toNat = byte.toNat % 16 := by
    intro byte
    exact Nat.and_two_pow_sub_one_eq_mod byte.toNat 4
  have high : ∀ byte : UInt8, (byte >>> 4 &&& (15 : UInt8)).toNat = byte.toNat / 16 % 16 := by
    intro byte
    rw [low, UInt8.toNat_shiftRight, Nat.shiftRight_eq_div_pow]
    rfl
  have digit : ∀ {value other : Nat}, dec2hex (value % 16) = dec2hex (other % 16) →
      value % 16 = other % 16 := by
    intro value other equal
    have small := Nat.mod_lt value (show 0 < 16 by decide)
    have less := Nat.mod_lt other (show 0 < 16 by decide)
    exact congrArg Fin.val (dec2hex_injective ⟨value % 16, small⟩ ⟨other % 16, less⟩ equal)
  simp only [hexDigits, high, List.cons.injEq, and_true] at same
  rw [low, low] at same
  have upper := digit same.1
  have lower := digit same.2
  have bound := first.toNat_lt
  have limit := second.toNat_lt
  apply UInt8.toNat_inj.mp
  omega

theorem hex_injective {first second : List UInt8} (same : hex first = hex second) :
    first = second := by
  induction first generalizing second with
  | nil =>
      cases second with
      | nil => rfl
      | cons byte rest => simp [hex, hexDigits] at same
  | cons byte rest induction =>
      cases second with
      | nil => simp [hex, hexDigits] at same
      | cons other later =>
          rw [hex, hex, List.flatMap_cons, List.flatMap_cons] at same
          have parts := List.append_inj same rfl
          rw [hexDigits_injective parts.1, induction parts.2]

theorem hexDigit_injective : ∀ first second : Fin 16,
    hexDigit first = hexDigit second → first = second := by decide

theorem generateRandomSalt_injective {first second : Draws}
    (same : generateRandomSalt first = generateRandomSalt second) : first = second := by
  funext index
  have digits := congrFun (List.ofFn_injective same) index
  exact hexDigit_injective _ _ digits

theorem salted_injective {first second salt : ByteString}
    (same : salted first salt = salted second salt) : first = second := by
  rw [salted, salted, List.append_assoc, List.append_assoc] at same
  exact (List.append_inj_left' same rfl)

/-- What is recorded of a password. -/
def storedCredential (host : ByteOrder) (memory : SHA256.method.State)
    (extra : Vector UInt8 blockBytes) (passphrase : ByteString) (draws : Draws) :
    Option ByteString :=
  (hashCredentialsOn host memory extra passphrase (generateRandomSalt draws)).map
    CredentialHash.toBytes

/-- On any machines, two passwords are recorded alike only under the same salt, and then only when
they are the same or SHA-256 collides on the salted passwords. -/
theorem storedCredential_eq_iff (host other : ByteOrder)
    (memory otherMemory : SHA256.method.State) (extra otherExtra : Vector UInt8 blockBytes)
    (first second : ByteString) (draws others : Draws) :
    storedCredential host memory extra first draws =
        storedCredential other otherMemory otherExtra second others ↔
      draws = others ∧
        (first = second ∨ Collision (salted first (generateRandomSalt draws))
          (salted second (generateRandomSalt draws))) := by
  rw [storedCredential, storedCredential, hashCredentialsOn_eq_some, hashCredentialsOn_eq_some,
    Option.map_some, Option.map_some, Option.some.injEq]
  simp only [CredentialHash.toBytes, hashCredentials, List.append_assoc,
    List.append_cancel_left_eq]
  constructor
  · intro same
    have parts := List.append_inj same (by simp [generateRandomSalt])
    have drawn := generateRandomSalt_injective parts.1
    subst drawn
    have digests := hex_injective (List.append_cancel_left parts.2)
    refine ⟨rfl, ?_⟩
    by_cases equal : first = second
    · exact .inl equal
    · refine .inr ⟨fun same => equal (salted_injective same), ?_⟩
      simpa only [salted, List.append_assoc] using digests
  · rintro ⟨rfl, rfl | collision⟩
    · rfl
    · have digests := collision.2
      simp only [salted, List.append_assoc] at digests
      rw [sha256Hex, sha256Hex, digests]

end Pmud.Security
