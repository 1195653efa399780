import SealedColumns.Text.Utf8

/-!
What a run takes from outside the program: random bytes and names that nothing else bears. Both are
streams with a mark of how much has been taken.
-/
namespace SealedColumns

structure Supply where
  byte : Nat → UInt8
  name : Nat → String
  drawn : Nat
  named : Nat

namespace Supply

def ofStreams (byte : Nat → UInt8) (name : Nat → String) : Supply := ⟨byte, name, 0, 0⟩

/-- The form of the names: a fixed beginning that no other name is expected to have, and 32
digits. -/
def nameOf (digits : String) : String := "__sifresql_" ++ digits

def draw (s : Supply) (count : Nat) : Text.Bytes × Supply :=
  ((List.range count).map fun i => s.byte (s.drawn + i), { s with drawn := s.drawn + count })

def freshName (s : Supply) : String × Supply :=
  (s.name s.named, { s with named := s.named + 1 })

/-- Two supplies give the same names from here on. -/
def SameNames (s t : Supply) : Prop := t.name = s.name ∧ t.named = s.named

theorem SameNames.refl (s : Supply) : s.SameNames s := ⟨rfl, rfl⟩

theorem SameNames.trans {s t u : Supply} (first : s.SameNames t) (second : t.SameNames u) :
    s.SameNames u :=
  ⟨second.1.trans first.1, second.2.trans first.2⟩

theorem SameNames.freshName {s t : Supply} (same : s.SameNames t) :
    t.freshName.1 = s.freshName.1 ∧ s.freshName.2.SameNames t.freshName.2 := by
  obtain ⟨name, named⟩ := same
  simp [Supply.freshName, SameNames, name, named]

/-- Drawing bytes takes no names. -/
theorem draw_sameNames (s : Supply) (count : Nat) : s.SameNames (s.draw count).2 := ⟨rfl, rfl⟩

end Supply

end SealedColumns
