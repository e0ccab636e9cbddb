import RootHerald.Lib.Bytes

/-! The Secure Enclave wrapper of the macOS driver, over the keys the keychain holds under its tag. -/
namespace RootHerald.MacOS

/-- The key that the n-th SecKeyCreateRandomKey drew. -/
abbrev SecKey := Nat

structure Keychain where
  keys : List SecKey := []
  drawn : Nat := 0
  deriving DecidableEq

/-- What Security.framework answers in a call. -/
structure Security where
  /-- The access control that isAvailable tries. -/
  available : Bool
  /-- The place of the item that SecItemCopyMatching returns. -/
  found : Option Nat
  access : Bool
  creates : Bool
  exports : Bool
  signs : Bool

def isAvailable (sec : Security) : Bool := sec.available

/-- SecItemCopyMatching, with a limit of one item. -/
def secItemCopyMatching (sec : Security) (chain : Keychain) : Option SecKey := sec.found.bind fun i => chain.keys[i]?

def getOrCreateDeviceKey (sec : Security) : StateM Keychain (Option SecKey) := fun chain =>
  match secItemCopyMatching sec chain with
  | some key => (some key, chain)
  | none =>
    if ¬ sec.access then (none, chain)
    else if ¬ sec.creates then (none, chain)
    else (some chain.drawn, { keys := chain.keys ++ [chain.drawn], drawn := chain.drawn + 1 })

section DeviceKey
variable {sec : Security} {chain : Keychain}

/-- Whether the call makes a key: none is found, and SecKeyCreateRandomKey is reached and succeeds. -/
def Creates (sec : Security) (chain : Keychain) : Prop :=
  secItemCopyMatching sec chain = none ∧ sec.access ∧ sec.creates

/-- getOrCreateDeviceKey returns a key. -/
def HasKey (sec : Security) (chain : Keychain) : Prop :=
  secItemCopyMatching sec chain ≠ none ∨ Creates sec chain

theorem getOrCreateDeviceKey_found {key : SecKey} (h : secItemCopyMatching sec chain = some key) :
    (getOrCreateDeviceKey sec).run chain = (some key, chain) := by
  change getOrCreateDeviceKey sec chain = _
  rw [getOrCreateDeviceKey, h]

theorem getOrCreateDeviceKey_created (h : Creates sec chain) : (getOrCreateDeviceKey sec).run chain =
    (some chain.drawn, { keys := chain.keys ++ [chain.drawn], drawn := chain.drawn + 1 }) := by
  obtain ⟨hnone, haccess, hcreates⟩ := h
  change getOrCreateDeviceKey sec chain = _
  rw [getOrCreateDeviceKey, hnone]
  dsimp only
  rw [if_neg (not_not.mpr haccess), if_neg (not_not.mpr hcreates)]

theorem getOrCreateDeviceKey_failed (hnone : secItemCopyMatching sec chain = none) (h : ¬ Creates sec chain) :
    (getOrCreateDeviceKey sec).run chain = (none, chain) := by
  change getOrCreateDeviceKey sec chain = _
  rw [getOrCreateDeviceKey, hnone]
  dsimp only
  split_ifs with haccess hcreates
  · exact absurd ⟨hnone, haccess, hcreates⟩ h
  · rfl
  · rfl

/-- The three things getOrCreateDeviceKey can do. -/
theorem getOrCreateDeviceKey_cases (sec : Security) (chain : Keychain) :
    (∃ key, secItemCopyMatching sec chain = some key ∧ (getOrCreateDeviceKey sec).run chain = (some key, chain)) ∨
    (Creates sec chain ∧ (getOrCreateDeviceKey sec).run chain =
      (some chain.drawn, { keys := chain.keys ++ [chain.drawn], drawn := chain.drawn + 1 })) ∨
    (¬ HasKey sec chain ∧ (getOrCreateDeviceKey sec).run chain = (none, chain)) := by
  cases hfound : secItemCopyMatching sec chain with
  | some key => exact .inl ⟨key, rfl, getOrCreateDeviceKey_found hfound⟩
  | none =>
    by_cases hcreates : Creates sec chain
    · exact .inr (.inl ⟨hcreates, getOrCreateDeviceKey_created hcreates⟩)
    · exact .inr (.inr ⟨fun h => h.elim (absurd hfound) hcreates, getOrCreateDeviceKey_failed hfound hcreates⟩)

theorem getOrCreateDeviceKey_isSome : ((getOrCreateDeviceKey sec).run chain).1.isSome ↔ HasKey sec chain := by
  rcases getOrCreateDeviceKey_cases sec chain with ⟨key, hfound, hrun⟩ | ⟨hcreates, hrun⟩ | ⟨hnone, hrun⟩
  · rw [hrun]
    exact iff_of_true rfl (.inl fun h => by cases hfound.symm.trans h)
  · rw [hrun]
    exact iff_of_true rfl (.inr hcreates)
  · rw [hrun]
    exact iff_of_false Bool.false_ne_true hnone

/-- Only a key that is made changes the keychain. -/
theorem getOrCreateDeviceKey_keeps (h : ¬ Creates sec chain) : ((getOrCreateDeviceKey sec).run chain).2 = chain := by
  rcases getOrCreateDeviceKey_cases sec chain with ⟨key, -, hrun⟩ | ⟨hcreates, -⟩ | ⟨-, hrun⟩
  · rw [hrun]
  · exact absurd hcreates h
  · rw [hrun]

end DeviceKey
end RootHerald.MacOS
