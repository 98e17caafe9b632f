import Acme.Der

/-!
# Registered curves

The elliptic curves that keys may name, with their object identifiers and the numbers and short
names under which they are registered. All but P-256 are known by name only: keys on them are
recognised and turned away.
-/

namespace Acme

structure RegisteredCurve where
  oid : Der.Oid
  number : Nat
  name : String
  deriving DecidableEq, Repr

namespace RegisteredCurve

def p256 : RegisteredCurve := ⟨[1, 2, 840, 10045, 3, 1, 7], 415, "prime256v1"⟩

def all : List RegisteredCurve := [
  ⟨[1, 2, 840, 10045, 3, 1, 1], 409, "prime192v1"⟩,
  ⟨[1, 2, 840, 10045, 3, 1, 2], 410, "prime192v2"⟩,
  ⟨[1, 2, 840, 10045, 3, 1, 3], 411, "prime192v3"⟩,
  ⟨[1, 2, 840, 10045, 3, 1, 4], 412, "prime239v1"⟩,
  ⟨[1, 2, 840, 10045, 3, 1, 5], 413, "prime239v2"⟩,
  ⟨[1, 2, 840, 10045, 3, 1, 6], 414, "prime239v3"⟩,
  ⟨[1, 2, 840, 10045, 3, 1, 7], 415, "prime256v1"⟩,
  ⟨[1, 2, 840, 10045, 3, 0, 1], 684, "c2pnb163v1"⟩,
  ⟨[1, 2, 840, 10045, 3, 0, 2], 685, "c2pnb163v2"⟩,
  ⟨[1, 2, 840, 10045, 3, 0, 3], 686, "c2pnb163v3"⟩,
  ⟨[1, 2, 840, 10045, 3, 0, 4], 687, "c2pnb176v1"⟩,
  ⟨[1, 2, 840, 10045, 3, 0, 5], 688, "c2tnb191v1"⟩,
  ⟨[1, 2, 840, 10045, 3, 0, 6], 689, "c2tnb191v2"⟩,
  ⟨[1, 2, 840, 10045, 3, 0, 7], 690, "c2tnb191v3"⟩,
  ⟨[1, 2, 840, 10045, 3, 0, 10], 693, "c2pnb208w1"⟩,
  ⟨[1, 2, 840, 10045, 3, 0, 11], 694, "c2tnb239v1"⟩,
  ⟨[1, 2, 840, 10045, 3, 0, 12], 695, "c2tnb239v2"⟩,
  ⟨[1, 2, 840, 10045, 3, 0, 13], 696, "c2tnb239v3"⟩,
  ⟨[1, 2, 840, 10045, 3, 0, 16], 699, "c2pnb272w1"⟩,
  ⟨[1, 2, 840, 10045, 3, 0, 17], 700, "c2pnb304w1"⟩,
  ⟨[1, 2, 840, 10045, 3, 0, 18], 701, "c2tnb359v1"⟩,
  ⟨[1, 2, 840, 10045, 3, 0, 19], 702, "c2pnb368w1"⟩,
  ⟨[1, 2, 840, 10045, 3, 0, 20], 703, "c2tnb431r1"⟩,
  ⟨[1, 3, 132, 0, 6], 704, "secp112r1"⟩,
  ⟨[1, 3, 132, 0, 7], 705, "secp112r2"⟩,
  ⟨[1, 3, 132, 0, 28], 706, "secp128r1"⟩,
  ⟨[1, 3, 132, 0, 29], 707, "secp128r2"⟩,
  ⟨[1, 3, 132, 0, 9], 708, "secp160k1"⟩,
  ⟨[1, 3, 132, 0, 8], 709, "secp160r1"⟩,
  ⟨[1, 3, 132, 0, 30], 710, "secp160r2"⟩,
  ⟨[1, 3, 132, 0, 31], 711, "secp192k1"⟩,
  ⟨[1, 3, 132, 0, 32], 712, "secp224k1"⟩,
  ⟨[1, 3, 132, 0, 33], 713, "secp224r1"⟩,
  ⟨[1, 3, 132, 0, 10], 714, "secp256k1"⟩,
  ⟨[1, 3, 132, 0, 34], 715, "secp384r1"⟩,
  ⟨[1, 3, 132, 0, 35], 716, "secp521r1"⟩,
  ⟨[1, 3, 132, 0, 4], 717, "sect113r1"⟩,
  ⟨[1, 3, 132, 0, 5], 718, "sect113r2"⟩,
  ⟨[1, 3, 132, 0, 22], 719, "sect131r1"⟩,
  ⟨[1, 3, 132, 0, 23], 720, "sect131r2"⟩,
  ⟨[1, 3, 132, 0, 1], 721, "sect163k1"⟩,
  ⟨[1, 3, 132, 0, 2], 722, "sect163r1"⟩,
  ⟨[1, 3, 132, 0, 15], 723, "sect163r2"⟩,
  ⟨[1, 3, 132, 0, 24], 724, "sect193r1"⟩,
  ⟨[1, 3, 132, 0, 25], 725, "sect193r2"⟩,
  ⟨[1, 3, 132, 0, 26], 726, "sect233k1"⟩,
  ⟨[1, 3, 132, 0, 27], 727, "sect233r1"⟩,
  ⟨[1, 3, 132, 0, 3], 728, "sect239k1"⟩,
  ⟨[1, 3, 132, 0, 16], 729, "sect283k1"⟩,
  ⟨[1, 3, 132, 0, 17], 730, "sect283r1"⟩,
  ⟨[1, 3, 132, 0, 36], 731, "sect409k1"⟩,
  ⟨[1, 3, 132, 0, 37], 732, "sect409r1"⟩,
  ⟨[1, 3, 132, 0, 38], 733, "sect571k1"⟩,
  ⟨[1, 3, 132, 0, 39], 734, "sect571r1"⟩,
  ⟨[2, 23, 43, 1, 4, 1], 735, "wap-wsg-idm-ecid-wtls1"⟩,
  ⟨[2, 23, 43, 1, 4, 3], 736, "wap-wsg-idm-ecid-wtls3"⟩,
  ⟨[2, 23, 43, 1, 4, 4], 737, "wap-wsg-idm-ecid-wtls4"⟩,
  ⟨[2, 23, 43, 1, 4, 5], 738, "wap-wsg-idm-ecid-wtls5"⟩,
  ⟨[2, 23, 43, 1, 4, 6], 739, "wap-wsg-idm-ecid-wtls6"⟩,
  ⟨[2, 23, 43, 1, 4, 7], 740, "wap-wsg-idm-ecid-wtls7"⟩,
  ⟨[2, 23, 43, 1, 4, 8], 741, "wap-wsg-idm-ecid-wtls8"⟩,
  ⟨[2, 23, 43, 1, 4, 9], 742, "wap-wsg-idm-ecid-wtls9"⟩,
  ⟨[2, 23, 43, 1, 4, 10], 743, "wap-wsg-idm-ecid-wtls10"⟩,
  ⟨[2, 23, 43, 1, 4, 11], 744, "wap-wsg-idm-ecid-wtls11"⟩,
  ⟨[2, 23, 43, 1, 4, 12], 745, "wap-wsg-idm-ecid-wtls12"⟩,
  ⟨[1, 3, 36, 3, 3, 2, 8, 1, 1, 1], 921, "brainpoolP160r1"⟩,
  ⟨[1, 3, 36, 3, 3, 2, 8, 1, 1, 2], 922, "brainpoolP160t1"⟩,
  ⟨[1, 3, 36, 3, 3, 2, 8, 1, 1, 3], 923, "brainpoolP192r1"⟩,
  ⟨[1, 3, 36, 3, 3, 2, 8, 1, 1, 4], 924, "brainpoolP192t1"⟩,
  ⟨[1, 3, 36, 3, 3, 2, 8, 1, 1, 5], 925, "brainpoolP224r1"⟩,
  ⟨[1, 3, 36, 3, 3, 2, 8, 1, 1, 6], 926, "brainpoolP224t1"⟩,
  ⟨[1, 3, 36, 3, 3, 2, 8, 1, 1, 7], 927, "brainpoolP256r1"⟩,
  ⟨[1, 3, 36, 3, 3, 2, 8, 1, 1, 8], 928, "brainpoolP256t1"⟩,
  ⟨[1, 3, 36, 3, 3, 2, 8, 1, 1, 9], 929, "brainpoolP320r1"⟩,
  ⟨[1, 3, 36, 3, 3, 2, 8, 1, 1, 10], 930, "brainpoolP320t1"⟩,
  ⟨[1, 3, 36, 3, 3, 2, 8, 1, 1, 11], 931, "brainpoolP384r1"⟩,
  ⟨[1, 3, 36, 3, 3, 2, 8, 1, 1, 12], 932, "brainpoolP384t1"⟩,
  ⟨[1, 3, 36, 3, 3, 2, 8, 1, 1, 13], 933, "brainpoolP512r1"⟩,
  ⟨[1, 3, 36, 3, 3, 2, 8, 1, 1, 14], 934, "brainpoolP512t1"⟩,
  ⟨[1, 2, 156, 10197, 1, 301], 1172, "SM2"⟩]

/-- The curve with an object identifier. -/
def ofItem? (i : Der.Item) : Option RegisteredCurve := all.find? fun c => i.isOid c.oid

end RegisteredCurve

end Acme
