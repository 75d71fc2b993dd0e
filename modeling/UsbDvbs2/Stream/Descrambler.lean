import UsbDvbs2.Camd.Client

/-! # The descrambler and its keys

The two keys of a `dtv_csa`, and the refresh that the stream thread makes before
every read is decrypted. Between two calls the descrambler has nothing queued, so
a batch is its key and whether that key is valid.
-/

namespace Stream

open Camd

structure Batch where
  key : Key
  valid : Bool
  deriving DecidableEq

structure Csa where
  even : Batch
  odd : Batch
  deriving DecidableEq

def Batch.set (batch : Batch) (key : Key) (valid : Bool) : Batch :=
  if valid then ⟨key, true⟩ else { batch with valid := false }

def Csa.create : Csa := ⟨⟨zeroCw, false⟩, ⟨zeroCw, false⟩⟩

def Csa.setKeys (csa : Csa) (even : Key) (evenValid : Bool) (odd : Key) (oddValid : Bool) : Csa :=
  ⟨csa.even.set even evenValid, csa.odd.set odd oddValid⟩

def Csa.clearKeys (csa : Csa) : Csa :=
  ⟨{ csa.even with valid := false }, { csa.odd with valid := false }⟩

def Csa.hasKey (csa : Csa) : Bool := csa.even.valid || csa.odd.valid

/-- What the stream thread knows about the keys it installed. -/
structure Keyring where
  csa : Csa
  keysInstalled : Bool
  keyGeneration : UInt32
  deriving DecidableEq

def Keyring.create : Keyring := ⟨.create, false, 0⟩

/-- The keys are forgotten when a new channel is adopted. -/
def Keyring.forget (ring : Keyring) : Keyring := ⟨ring.csa.clearKeys, false, 0⟩

/-- Whether a refresh calls `dtv_csa_set_keys`. -/
def Keyring.installs (ring : Keyring) (keys : Client.Keys) : Bool :=
  keys.valid && (!ring.keysInstalled || keys.generation != ring.keyGeneration)

/-- An all-zero word means not this parity. -/
def Keyring.install (ring : Keyring) (keys : Client.Keys) : Keyring where
  csa := ring.csa.setKeys keys.even (keys.even != zeroCw) keys.odd (keys.odd != zeroCw)
  keysInstalled := true
  keyGeneration := keys.generation

/-- The key refresh of the stream thread; without a client the keys go. -/
def Keyring.refresh (ring : Keyring) (camd : Option Client) : Keyring :=
  match camd with
  | some client => if ring.installs client.getKeys then ring.install client.getKeys else ring
  | none =>
      if ring.keysInstalled then { ring with csa := ring.csa.clearKeys, keysInstalled := false }
      else ring

/-- Whether a read with packets is handed to `dtv_csa_decrypt_run`. -/
def Keyring.decrypts (ring : Keyring) : Bool := ring.keysInstalled && ring.csa.hasKey

theorem Batch.set_valid (batch : Batch) (key : Key) (valid : Bool) :
    (batch.set key valid).valid = valid := by
  cases valid <;> rfl

theorem Batch.set_key {batch : Batch} {key : Key} {valid : Bool}
    (isValid : (batch.set key valid).valid = true) : (batch.set key valid).key = key := by
  rw [set_valid] at isValid
  subst isValid
  rfl

end Stream
