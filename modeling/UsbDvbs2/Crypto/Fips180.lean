import Mathlib.Data.Nat.NthRoot.Defs
import Mathlib.Data.Nat.Prime.Basic
import UsbDvbs2.Crypto.BlockHash

/-! # SHA-256 of FIPS 180-4

The standard's own definitions: functions and constants of section 4, the message schedule
by its recurrence, and the rounds of section 6.2.
-/

namespace Fips180

open BlockHash

/-! ## Functions -/

def rotr (n : UInt32) (x : UInt32) : UInt32 := x >>> n ||| x <<< (32 - n)

def ch (x y z : UInt32) : UInt32 := (x &&& y) ^^^ (~~~x &&& z)

def maj (x y z : UInt32) : UInt32 := (x &&& y) ^^^ (x &&& z) ^^^ (y &&& z)

def bigSigma0 (x : UInt32) : UInt32 := rotr 2 x ^^^ rotr 13 x ^^^ rotr 22 x

def bigSigma1 (x : UInt32) : UInt32 := rotr 6 x ^^^ rotr 11 x ^^^ rotr 25 x

def smallSigma0 (x : UInt32) : UInt32 := rotr 7 x ^^^ rotr 18 x ^^^ x >>> 3

def smallSigma1 (x : UInt32) : UInt32 := rotr 17 x ^^^ rotr 19 x ^^^ x >>> 10

/-! ## Constants -/

/-- The first 64 prime numbers; no other divisors need to be tried below 18². -/
def primes : List Nat := (List.range 312).filter fun n =>
  2 ≤ n && (List.range' 2 16).all fun divisor => n ≤ divisor || n % divisor != 0

theorem mem_primes {n : Nat} : n ∈ primes ↔ n < 312 ∧ n.Prime := by
  rw [primes, List.mem_filter, List.mem_range, Bool.and_eq_true, decide_eq_true_eq,
    List.all_eq_true]
  refine and_congr_right fun small => ⟨fun test => ?_, fun prime => ⟨prime.two_le, ?_⟩⟩
  · refine Nat.prime_def_le_sqrt.2 ⟨test.1, fun divisor two root divides => ?_⟩
    have square := Nat.le_sqrt.1 root
    have below : divisor < 18 := by
      by_contra high
      have large := Nat.mul_le_mul (Nat.le_of_not_lt high) (Nat.le_of_not_lt high)
      omega
    have tried := test.2 divisor (List.mem_range'_1.2 ⟨two, below⟩)
    rw [Bool.or_eq_true, decide_eq_true_eq, bne_iff_ne] at tried
    rcases tried with less | rest
    · have large := Nat.mul_le_mul two less
      omega
    · exact rest (Nat.mod_eq_zero_of_dvd divides)
  · intro divisor mem
    rw [Bool.or_eq_true, decide_eq_true_eq, bne_iff_ne, or_iff_not_imp_right]
    intro whole
    have divides := Nat.dvd_of_mod_eq_zero (Decidable.not_not.1 whole)
    have two := (List.mem_range'_1.1 mem).1
    rcases prime.eq_one_or_self_of_dvd divisor divides with one | same
    · omega
    · exact Nat.le_of_eq same.symm

/-- The first 32 bits of the fractional part of a root. -/
def rootBits (degree n : Nat) : UInt32 := UInt32.ofNat (Nat.nthRoot degree (n * 2 ^ (32 * degree)))

/-- `K`, of the cube roots. -/
def roundConstants : List UInt32 := primes.map (rootBits 3)

/-- `H` to begin with, of the square roots of the first eight. -/
def initialHash : Vector UInt32 8 := .ofFn fun i => rootBits 2 (primes.getD i 0)

/-! ## The compression -/

/-- The words of a block. -/
def word (block : List UInt8) (t : Nat) : UInt32 :=
  (block.getD (4 * t) 0).toUInt32 <<< 24 ||| (block.getD (4 * t + 1) 0).toUInt32 <<< 16 |||
    (block.getD (4 * t + 2) 0).toUInt32 <<< 8 ||| (block.getD (4 * t + 3) 0).toUInt32

/-- `W` by its recurrence. -/
def schedule (block : List UInt8) (t : Nat) : UInt32 :=
  if t < 16 then word block t
  else smallSigma1 (schedule block (t - 2)) + schedule block (t - 7) +
    smallSigma0 (schedule block (t - 15)) + schedule block (t - 16)

/-- The working variables. -/
structure Working where
  a : UInt32
  b : UInt32
  c : UInt32
  d : UInt32
  e : UInt32
  f : UInt32
  g : UInt32
  h : UInt32

/-- The variables that a hash value is compressed from. -/
def Working.ofHash (hash : Vector UInt32 8) : Working where
  a := hash.get 0
  b := hash.get 1
  c := hash.get 2
  d := hash.get 3
  e := hash.get 4
  f := hash.get 5
  g := hash.get 6
  h := hash.get 7

def Working.words (vars : Working) : Vector UInt32 8 :=
  #v[vars.a, vars.b, vars.c, vars.d, vars.e, vars.f, vars.g, vars.h]

def round (block : List UInt8) (vars : Working) (t : Nat) : Working :=
  let t1 := vars.h + bigSigma1 vars.e + ch vars.e vars.f vars.g + roundConstants.getD t 0 +
    schedule block t
  let t2 := bigSigma0 vars.a + maj vars.a vars.b vars.c
  { a := t1 + t2, b := vars.a, c := vars.b, d := vars.c
    e := vars.d + t1, f := vars.e, g := vars.f, h := vars.g }

/-- The next intermediate hash value. -/
def next (hash : Vector UInt32 8) (vars : Working) : Vector UInt32 8 :=
  .zipWith (· + ·) vars.words hash

def compress (hash : Vector UInt32 8) (block : List UInt8) : Vector UInt32 8 :=
  next hash ((List.range 64).foldl (round block) (.ofHash hash))

def bigEndian (word : UInt32) : List UInt8 :=
  [(word >>> 24).toUInt8, (word >>> 16).toUInt8, (word >>> 8).toUInt8, word.toUInt8]

/-- The message digest: the last hash value over the blocks of the padded message. -/
def digest (message : List UInt8) : List UInt8 :=
  ((blocks 64 (padded be64 message)).foldl compress initialHash).toList.flatMap bigEndian

end Fips180
