import NetBoot.Text.Basic

namespace NetBoot

abbrev Annotations := List (Text × Text)

namespace Annotations

def get? (key : Text) (a : Annotations) : Option Text := List.lookup key a

def erase (key : Text) (a : Annotations) : Annotations := a.filter fun p => p.1 ≠ key

def set (key value : Text) (a : Annotations) : Annotations := erase key a ++ [(key, value)]

def title : Text := "org.opencontainers.image.title".toList

def layerArchitecture : Text := "io.gardenlinux.image.layer.architecture".toList

def cname : Text := "cname".toList

def architecture : Text := "architecture".toList

theorem get?_append (key : Text) (a b : Annotations) :
    get? key (a ++ b) = (get? key a <|> get? key b) := by
  induction a with
  | nil => rfl
  | cons x xs ih =>
      obtain ⟨name, value⟩ := x
      simp only [get?, List.cons_append, List.lookup_cons] at ih ⊢
      split
      · rfl
      · exact ih

theorem get?_set_self (key value : Text) (a : Annotations) :
    get? key (set key value a) = some value := by
  have herase : get? key (erase key a) = none := Text.lookup_filter_self key a
  rw [set, get?_append, herase]
  simp [get?]

theorem get?_set_of_ne {key other : Text} (h : key ≠ other) (value : Text) (a : Annotations) :
    get? key (set other value a) = get? key a := by
  have hb : (key == other) = false := by simpa using h
  have herase : get? key (erase other a) = get? key a := Text.lookup_filter_of_ne h a
  rw [set, get?_append, herase]
  simp [get?, List.lookup_cons, hb]

end Annotations

end NetBoot
