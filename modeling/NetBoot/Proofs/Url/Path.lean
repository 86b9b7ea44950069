import Mathlib.Algebra.Ring.Nat
import NetBoot.Proofs.Url.Encoding

namespace NetBoot

namespace Text

variable {c x : Char} {t : Text}

theorem splitAll_cons_self (c : Char) (t : Text) : splitAll c (c :: t) = [] :: splitAll c t := by
  simp [splitAll]

theorem splitAll_cons_of_ne (h : x ≠ c) (t : Text) :
    splitAll c (x :: t) = (splitAll c t).modifyHead (x :: ·) := by
  cases hs : splitAll c t with
  | nil => exact absurd hs (splitAll_ne_nil c t)
  | cons piece rest => simp [splitAll, h, hs]

theorem splitAll_append_cons (c : Char) (t u : Text) :
    splitAll c (t ++ c :: u) = splitAll c t ++ splitAll c u := by
  induction t with
  | nil => simp [splitAll]
  | cons x t ih =>
      by_cases hx : x = c
      · subst hx
        rw [List.cons_append, splitAll_cons_self, splitAll_cons_self, ih]
        rfl
      · rw [List.cons_append, splitAll_cons_of_ne hx, splitAll_cons_of_ne hx, ih]
        cases hs : splitAll c t with
        | nil => exact absurd hs (splitAll_ne_nil c t)
        | cons piece rest => rfl

theorem splitAll_of_not_mem (h : c ∉ t) : splitAll c t = [t] := by
  induction t with
  | nil => rfl
  | cons x t ih =>
      simp only [List.mem_cons, not_or] at h
      rw [splitAll_cons_of_ne (Ne.symm h.1), ih h.2]
      rfl

theorem exists_mem_splitAll_iff {c x : Char} {t : Text} :
    (∃ s ∈ splitAll c t, x ∈ s) ↔ x ∈ t ∧ x ≠ c := by
  induction t with
  | nil => simp [splitAll]
  | cons y t ih =>
      by_cases hy : y = c
      · subst hy
        rw [splitAll_cons_self]
        simp only [List.mem_cons, exists_eq_or_imp, ih]
        grind
      · rw [splitAll_cons_of_ne hy]
        cases hs : splitAll c t with
        | nil => exact absurd hs (splitAll_ne_nil c t)
        | cons piece rest =>
            rw [hs] at ih
            simp only [List.modifyHead_cons, List.mem_cons, exists_eq_or_imp] at ih ⊢
            grind

end Text

namespace Url

open Percent

section Pieces

variable {special : Bool} {c : Char} {t : Text}

theorem splitAtSlashes_ne_nil (special : Bool) (t : Text) : splitAtSlashes special t ≠ [] := by
  cases t with
  | nil => simp [splitAtSlashes]
  | cons c t =>
      unfold splitAtSlashes
      grind

theorem splitAtSlashes_cons_of_slash (h : isSlash special c) (t : Text) :
    splitAtSlashes special (c :: t) = [] :: splitAtSlashes special t := by
  simp [splitAtSlashes, h]

theorem splitAtSlashes_cons_of_not_slash (h : isSlash special c = false) (t : Text) :
    splitAtSlashes special (c :: t) = (splitAtSlashes special t).modifyHead (c :: ·) := by
  cases hs : splitAtSlashes special t with
  | nil => exact absurd hs (splitAtSlashes_ne_nil special t)
  | cons piece rest => simp [splitAtSlashes, h, hs]

theorem splitAtSlashes_false (t : Text) : splitAtSlashes false t = Text.splitAll '/' t := by
  induction t with
  | nil => rfl
  | cons c t ih =>
      by_cases hc : c = '/'
      · subst hc
        rw [splitAtSlashes_cons_of_slash (by decide), Text.splitAll_cons_self, ih]
      · rw [splitAtSlashes_cons_of_not_slash (by simp [isSlash, hc]), Text.splitAll_cons_of_ne hc, ih]

/-- Each backslash makes one piece more than the slashes alone. -/
theorem length_splitAtSlashes_true (t : Text) :
    (splitAtSlashes true t).length = (Text.splitAll '/' t).length + t.count '\\' := by
  induction t with
  | nil => rfl
  | cons c t ih =>
      by_cases hslash : c = '/'
      · subst hslash
        rw [splitAtSlashes_cons_of_slash (by decide), Text.splitAll_cons_self,
          List.count_cons_of_ne (by decide), List.length_cons, List.length_cons, ih]
        omega
      · rw [Text.splitAll_cons_of_ne hslash, List.length_modifyHead]
        by_cases hback : c = '\\'
        · subst hback
          rw [splitAtSlashes_cons_of_slash (by decide), List.count_cons_self, List.length_cons, ih]
          omega
        · rw [splitAtSlashes_cons_of_not_slash (by simp [isSlash, hslash, hback]),
            List.length_modifyHead, List.count_cons_of_ne hback, ih]

theorem splitAtSlashes_of_not_mem (h : '\\' ∉ t) : splitAtSlashes true t = Text.splitAll '/' t := by
  rw [← splitAtSlashes_false]
  induction t with
  | nil => rfl
  | cons c t ih =>
      simp only [List.mem_cons, not_or] at h
      have hc : isSlash true c = isSlash false c := by simp [isSlash, Ne.symm h.1]
      cases hslash : isSlash false c with
      | true =>
          rw [splitAtSlashes_cons_of_slash hslash, splitAtSlashes_cons_of_slash (hc.trans hslash),
            ih h.2]
      | false =>
          rw [splitAtSlashes_cons_of_not_slash hslash,
            splitAtSlashes_cons_of_not_slash (hc.trans hslash), ih h.2]

end Pieces

def weight (segs : List Text) : Nat := (segs.map fun s => s.length + 1).sum

theorem weight_nil : weight [] = 0 := rfl

theorem weight_cons (s : Text) (segs : List Text) :
    weight (s :: segs) = s.length + 1 + weight segs := by
  simp [weight]

theorem weight_append (segs segs' : List Text) :
    weight (segs ++ segs') = weight segs + weight segs' := by
  simp [weight]

theorem leaves_of_isSlash {special : Bool} {c : Char} (h : isSlash special c) : leaves inPath c := by
  have hc : c = '/' ∨ c = '\\' := by
    simp only [isSlash] at h
    grind
  rcases hc with rfl | rfl <;> decide

theorem weight_splitAtSlashes (special : Bool) (t : Text) :
    weight ((splitAtSlashes special t).map (encode inPath)) = (encode inPath t).length + 1 := by
  induction t with
  | nil => rfl
  | cons c t ih =>
      cases hc : isSlash special c with
      | true =>
          rw [splitAtSlashes_cons_of_slash hc, List.map_cons, weight_cons, ih,
            encode_cons_of_leaves (leaves_of_isSlash hc), List.length_cons]
          simp [encode]
          omega
      | false =>
          rw [splitAtSlashes_cons_of_not_slash hc, encode_cons inPath c t, List.length_append]
          cases hs : splitAtSlashes special t with
          | nil => exact absurd hs (splitAtSlashes_ne_nil special t)
          | cons piece rest =>
              rw [hs, List.map_cons, weight_cons] at ih
              rw [List.modifyHead_cons, List.map_cons, weight_cons, encode_cons inPath c piece,
                List.length_append]
              omega

theorem weight_dropSegment (segs : List Text) : weight (dropSegment segs) ≤ weight segs := by
  unfold dropSegment
  split
  · next s hlast =>
      split
      · exact Nat.le_refl _
      · obtain ⟨above, rfl⟩ := List.getLast?_eq_some_iff.1 hlast
        rw [List.dropLast_concat, weight_append]
        exact Nat.le_add_right _ _
  · exact Nat.zero_le _

theorem length_pos_of_isDot {s : Text} (h : isDot s) : 0 < s.length := by
  cases s with
  | nil => exact absurd h (by decide)
  | cons => simp

theorem weight_resolveSegments (acc segs : List Text) :
    weight (resolveSegments acc segs) + segs.countP isDot ≤ weight acc + weight segs := by
  fun_induction resolveSegments acc segs with
  | case1 acc => simp
  | case2 acc s hdouble =>
      have hdot : isDot s := by simp [isDot, hdouble]
      have hpos := length_pos_of_isDot hdot
      have hdrop := weight_dropSegment acc
      rw [weight_append, weight_cons, weight_cons, List.countP_singleton, if_pos hdot]
      simp only [List.length_nil]
      omega
  | case3 acc s hdouble hsingle =>
      have hdot : isDot s := by simp [isDot, hsingle]
      have hpos := length_pos_of_isDot hdot
      rw [weight_append, weight_cons, weight_cons, List.countP_singleton, if_pos hdot]
      simp only [List.length_nil]
      omega
  | case4 acc s hdouble hsingle =>
      have hdot : ¬ isDot s := by simp [isDot, hdouble, hsingle]
      rw [weight_append, List.countP_singleton, if_neg hdot]
      exact Nat.le_refl _
  | case5 acc s rest hrest hdouble ih =>
      have hdot : isDot s := by simp [isDot, hdouble]
      have hdrop := weight_dropSegment acc
      rw [List.countP_cons_of_pos hdot, weight_cons]
      omega
  | case6 acc s rest hrest hdouble hsingle ih =>
      have hdot : isDot s := by simp [isDot, hsingle]
      rw [List.countP_cons_of_pos hdot, weight_cons]
      omega
  | case7 acc s rest hrest hdouble hsingle ih =>
      have hdot : ¬ isDot s := by simp [isDot, hdouble, hsingle]
      rw [weight_append, weight_cons, weight_nil] at ih
      rw [List.countP_cons_of_neg hdot, weight_cons]
      omega

theorem resolveSegments_of_no_dots {segs : List Text} (h : ∀ s ∈ segs, isDot s = false)
    (acc : List Text) : resolveSegments acc segs = acc ++ segs := by
  induction segs generalizing acc with
  | nil => simp [resolveSegments]
  | cons s rest ih =>
      have hs : isDoubleDot s = false ∧ isSingleDot s = false := by
        simpa [isDot] using h s (.head _)
      cases rest with
      | nil => simp [resolveSegments, hs.1, hs.2]
      | cons s' rest =>
          have hrest := ih (fun s' hs' => h s' (.tail _ hs')) (acc ++ [s])
          simpa [resolveSegments, hs.1, hs.2] using hrest

theorem toText_segments_splitAll (t : Text) :
    (Path.segments ((Text.splitAll '/' t).map (encode inPath))).toText =
      '/' :: encode inPath t := by
  induction t with
  | nil => rfl
  | cons c t ih =>
      simp only [Path.toText] at ih ⊢
      by_cases hc : c = '/'
      · subst hc
        rw [Text.splitAll_cons_self, List.map_cons, List.flatMap_cons, ih,
          encode_cons_of_leaves (by decide)]
        rfl
      · rw [Text.splitAll_cons_of_ne hc, encode_cons inPath c t]
        cases hs : Text.splitAll '/' t with
        | nil => exact absurd hs (Text.splitAll_ne_nil '/' t)
        | cons piece rest =>
            rw [hs, List.map_cons, List.flatMap_cons, List.cons_append, List.cons.injEq] at ih
            rw [List.modifyHead_cons, List.map_cons, List.flatMap_cons, encode_cons inPath c piece,
              List.cons_append, List.append_assoc, ih.2]

theorem map_splitAtSlashes_no_dots_iff {special : Bool} {t : Text} :
    (∀ s ∈ (splitAtSlashes special t).map (encode inPath), isDot s = false) ↔
      ∀ s ∈ splitAtSlashes special t, isDot s = false := by
  simp [isDot_encode]

theorem addPath_eq_iff {front t : Text} (h : front.Sublist t) :
    addPath true [] front = (Text.splitAll '/' t).map (encode inPath) ↔
      front = t ∧ '\\' ∉ t ∧ ∀ s ∈ Text.splitAll '/' t, isDot s = false := by
  constructor
  · intro hpath
    have hweight := weight_resolveSegments [] ((splitAtSlashes true front).map (encode inPath))
    change weight (addPath true [] front) + _ ≤ _ at hweight
    rw [hpath, weight_splitAtSlashes, ← splitAtSlashes_false, weight_splitAtSlashes,
      weight_nil] at hweight
    have hlength : (encode inPath t).length ≤ (encode inPath front).length := by omega
    have hfront : front = t := eq_of_sublist_of_length_encode h hlength
    subst hfront
    have hnone : ((splitAtSlashes true front).map (encode inPath)).countP isDot = 0 := by omega
    have hdots : ∀ s ∈ (splitAtSlashes true front).map (encode inPath), isDot s = false := by
      simpa only [List.countP_eq_zero, Bool.not_eq_true] using hnone
    rw [addPath, resolveSegments_of_no_dots hdots, List.nil_append] at hpath
    have hcount : front.count '\\' = 0 := by
      have hlength := congrArg List.length hpath
      rw [List.length_map, List.length_map, length_splitAtSlashes_true] at hlength
      omega
    have hback : '\\' ∉ front := List.count_eq_zero.1 hcount
    refine ⟨rfl, hback, ?_⟩
    rw [← splitAtSlashes_of_not_mem hback]
    exact map_splitAtSlashes_no_dots_iff.1 hdots
  · rintro ⟨rfl, hback, hdots⟩
    rw [← splitAtSlashes_of_not_mem hback] at hdots ⊢
    rw [addPath, resolveSegments_of_no_dots (map_splitAtSlashes_no_dots_iff.2 hdots)]
    rfl

end Url

end NetBoot
