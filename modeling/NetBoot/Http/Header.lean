import NetBoot.Text.Basic

namespace NetBoot.Http

abbrev Headers := List (Text × Text)

namespace Headers

def values (name : Text) (hs : Headers) : List Text :=
  (hs.filter fun h => h.1 = name).map Prod.snd

def first? (name : Text) (hs : Headers) : Option Text := (values name hs).head?

def has (name : Text) (hs : Headers) : Bool := hs.any fun h => h.1 = name

def remove (name : Text) (hs : Headers) : Headers := hs.filter fun h => h.1 ≠ name

def set (name value : Text) (hs : Headers) : Headers := remove name hs ++ [(name, value)]

def setDefault (name value : Text) (hs : Headers) : Headers :=
  if has name hs then hs else hs ++ [(name, value)]

def isReadable (value : Text) : Bool :=
  value.all fun c => (0x20 ≤ c.toNat && c.toNat < 0x7F) || c = '\t'

def isLegal (value : Text) : Bool :=
  value.all fun c => (0x20 ≤ c.toNat && c.toNat ≠ 0x7F) || c = '\t'

def readable? (name : Text) (hs : Headers) : Option Text :=
  (first? name hs).filter isReadable

theorem values_append (name : Text) (a b : Headers) :
    values name (a ++ b) = values name a ++ values name b := by
  simp [values]

theorem values_remove_self (name : Text) (hs : Headers) : values name (remove name hs) = [] := by
  simp [values, remove]

theorem values_remove_of_ne {name other : Text} (h : name ≠ other) (hs : Headers) :
    values name (remove other hs) = values name hs := by
  have : ∀ x : Text × Text, (decide (x.1 = name) && !decide (x.1 = other)) =
      decide (x.1 = name) := by
    intro x
    by_cases hn : x.1 = name
    · simp [hn, h]
    · simp [hn]
  simp [values, remove, List.filter_filter, this]

theorem values_set_self (name value : Text) (hs : Headers) :
    values name (set name value hs) = [value] := by
  rw [set, values_append, values_remove_self]
  simp [values]

theorem values_set_of_ne {name other : Text} (h : name ≠ other) (value : Text) (hs : Headers) :
    values name (set other value hs) = values name hs := by
  rw [set, values_append, values_remove_of_ne h]
  simp [values, Ne.symm h]

end Headers

def authorizationName : Text := "authorization".toList

def acceptName : Text := "accept".toList

def contentTypeName : Text := "content-type".toList

def contentLengthName : Text := "content-length".toList

def locationName : Text := "location".toList

def userAgentName : Text := "user-agent".toList

def hostName : Text := "host".toList

def refererName : Text := "referer".toList

end NetBoot.Http
