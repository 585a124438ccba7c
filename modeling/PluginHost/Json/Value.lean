import PluginHost.Decimal.Shortest

/-!
# JSON values

A value of the data format in which host and plugins talk.  An object keeps its members ordered
by key, with one member per key (`insertMember`), so two objects with the same members are equal.
Whole numbers are exact; every other number is in double precision.
-/

namespace PluginHost.Json

open PluginHost.Decimal

/-- A number: a whole number that fits into 64 bits, or a number in double precision. -/
inductive Number where
  | integer (i : Int)
  | fraction (x : Double)
  deriving DecidableEq, Repr

/-- A JSON value. -/
inductive Value where
  | null
  | bool (b : Bool)
  | number (n : Number)
  | string (s : String)
  | array (items : List Value)
  | object (members : List (String × Value))
  deriving Repr

/-- Sets the member of a key, in a list ordered by key. -/
def insertMember {α : Type} (key : String) (value : α) : List (String × α) → List (String × α)
  | [] => [(key, value)]
  | (k, v) :: rest =>
      if key == k then (key, value) :: rest
      else if key < k then (key, value) :: (k, v) :: rest
      else (k, v) :: insertMember key value rest

/-- The members of a list in order, a later one replacing an earlier one of the same key. -/
def membersOf {α : Type} (members : List (String × α)) : List (String × α) :=
  members.foldl (fun acc (k, v) => insertMember k v acc) []

/-- The object with the given members. -/
def Value.ofMembers (members : List (String × Value)) : Value :=
  .object (membersOf members)

/-- The member of a key. -/
def member? {α : Type} (key : String) : List (String × α) → Option α
  | [] => none
  | (k, v) :: rest => if k == key then some v else member? key rest

theorem member?_insertMember_self {α : Type} (key : String) (value : α)
    (members : List (String × α)) : member? key (insertMember key value members) = some value := by
  induction members with
  | nil => simp [insertMember, member?]
  | cons head rest ih =>
      obtain ⟨k, v⟩ := head
      simp only [insertMember]
      split
      · simp [member?]
      · rename_i hne
        split
        · simp [member?]
        · have : ¬(k == key) = true := fun h => hne (by simp [beq_iff_eq.1 h])
          simp [member?, this, ih]

theorem member?_insertMember_of_ne {α : Type} {key other : String} (h : other ≠ key) (value : α)
    (members : List (String × α)) :
    member? other (insertMember key value members) = member? other members := by
  induction members with
  | nil => simp [insertMember, member?, Ne.symm h]
  | cons head rest ih =>
      obtain ⟨k, v⟩ := head
      simp only [insertMember]
      split
      · rename_i heq
        have hk : key = k := by simpa using heq
        subst hk
        simp [member?, Ne.symm h]
      · split
        · simp [member?, Ne.symm h]
        · simp [member?, ih]

end PluginHost.Json
