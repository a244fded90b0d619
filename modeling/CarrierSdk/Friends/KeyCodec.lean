import CarrierSdk.Carrier.State
import CarrierSdk.Library.Base58
import CarrierSdk.Library.Bytes

/-! The base58 texts of public keys and addresses. -/
namespace CarrierSdk.Friends

/-- base58_encode and base58_decode on the buffers of a key and of an address. A decoder
fails where the text does not fill its buffer; every key has one text. -/
structure KeyCodec where
  encode : PublicKey → UserId
  decodeKey : CString → Option PublicKey
  decodeAddress : CString → Option (List UInt8)
  decodeKey_iff : ∀ t pk, decodeKey t = some pk ↔ t = (encode pk).text

namespace KeyCodec

theorem decode_encode (codec : KeyCodec) (pk : PublicKey) :
    codec.decodeKey (codec.encode pk).text = some pk := (codec.decodeKey_iff _ _).mpr rfl

theorem encode_injective (codec : KeyCodec) {pk pk' : PublicKey} (h : codec.encode pk = codec.encode pk') :
    pk = pk' := by
  have hd := codec.decode_encode pk
  rw [h, codec.decode_encode] at hd
  exact (Option.some.inj hd).symm

end KeyCodec

/-! The codec of the library itself. -/

private def charByte (c : Char) : UInt8 := UInt8.ofNat c.toNat

private def byteChar (b : UInt8) : Char := Char.ofNat b.toNat

private theorem byteChar_charByte : ∀ c ∈ Base58.alphabet,
    byteChar (charByte c) = c ∧ charByte c ≠ 0 ∧ charByte c ≠ 58 := by
  have hall : Base58.alphabet.all (fun c => decide
      (byteChar (charByte c) = c ∧ charByte c ≠ 0 ∧ charByte c ≠ 58)) = true := by decide +kernel
  intro c hc
  exact of_decide_eq_true (List.all_eq_true.mp hall c hc)

/-- The base58 text of a number of so many bytes. -/
def base58Text (bytes n : Nat) : CString where
  bytes := (Base58.encode bytes n).map charByte
  noNul h := by
    obtain ⟨c, hc, hz⟩ := List.mem_map.mp h
    exact (byteChar_charByte c (Base58.mem_alphabet_of_mem_encode hc)).2.1 hz

theorem le_of_mem_base58Text {bytes n : Nat} {b : UInt8} (h : b ∈ (base58Text bytes n).bytes) : 49 ≤ b := by
  have hall : Base58.alphabet.all (fun c => decide (49 ≤ charByte c)) = true := by decide +kernel
  obtain ⟨c, hc, rfl⟩ := List.mem_map.mp h
  exact of_decide_eq_true (List.all_eq_true.mp hall c (Base58.mem_alphabet_of_mem_encode hc))

theorem base58Text_ne_empty {bytes : Nat} (hb : 0 < bytes) (n : Nat) : base58Text bytes n ≠ .empty := by
  intro h
  have hnil : (Base58.encode bytes n).map charByte = [] := congrArg CString.bytes h
  rw [List.map_eq_nil_iff, Base58.encode, List.append_eq_nil_iff, List.reverse_eq_nil_iff, List.map_eq_nil_iff,
    Nat.digits_eq_nil_iff_eq_zero] at hnil
  obtain ⟨hzeros, rfl⟩ := hnil
  rw [Nat.digits_zero, List.length_nil, Nat.sub_zero, List.replicate_eq_nil_iff] at hzeros
  omega

/-- The number that a base58 text of so many bytes stands for. -/
def base58Number (bytes : Nat) (t : CString) : Option Nat :=
  (Base58.decode (t.bytes.map byteChar)).filter fun n => decide (n < 256 ^ bytes ∧ base58Text bytes n = t)

theorem base58Number_eq_some {bytes n : Nat} {t : CString} :
    base58Number bytes t = some n ↔ n < 256 ^ bytes ∧ base58Text bytes n = t := by
  rw [base58Number, Option.filter_eq_some_iff, decide_eq_true_eq]
  refine ⟨fun h => h.2, fun h => ⟨?_, h⟩⟩
  have hchars : (base58Text bytes n).bytes.map byteChar = Base58.encode bytes n := by
    rw [base58Text, List.map_map]
    exact (List.map_congr_left fun c hc =>
      (byteChar_charByte c (Base58.mem_alphabet_of_mem_encode hc)).1).trans (List.map_id _)
  rw [← h.2, hchars, Base58.decode_encode]

/-- The text of a public key. -/
def base58Key (pk : PublicKey) : UserId where
  text := base58Text 32 pk.toNat
  short := by
    rw [CString.strlen, base58Text, List.length_map]
    exact Base58.length_encode_le pk.isLt
  noColon h := by
    obtain ⟨c, hc, hz⟩ := List.mem_map.mp h
    exact (byteChar_charByte c (Base58.mem_alphabet_of_mem_encode hc)).2.2 hz

def KeyCodec.base58 : KeyCodec where
  encode := base58Key
  decodeKey t := (base58Number 32 t).map (BitVec.ofNat 256)
  decodeAddress t := (base58Number 38 t).map (Bytes.bigEndian 38)
  decodeKey_iff t pk := by
    rw [Option.map_eq_some_iff]
    constructor
    · rintro ⟨n, hn, rfl⟩
      obtain ⟨hlt, rfl⟩ := base58Number_eq_some.mp hn
      change base58Text 32 n = base58Text 32 (BitVec.ofNat 256 n).toNat
      have hmod : n % 2 ^ 256 = n := Nat.mod_eq_of_lt hlt
      rw [BitVec.toNat_ofNat, hmod]
    · rintro rfl
      exact ⟨pk.toNat, base58Number_eq_some.mpr ⟨pk.isLt, rfl⟩, BitVec.ofNat_toNat ..⟩

end CarrierSdk.Friends
