import NetBoot.Proofs.Registry.Remembering
import NetBoot.Proofs.Url.FormPairs

namespace NetBoot

namespace Url

variable {special : Bool} {scheme t : Text} {u : Url}

theorem encoded_of_splitTail {query : Text} (h : (splitTail special t).2.query = some query) :
    ∃ q, query = Percent.encode (querySet special) q := by
  unfold splitTail at h
  dsimp only at h
  split at h
  · split at h
    · exact ⟨_, (Option.some.inj h).symm⟩
    · exact ⟨_, (Option.some.inj h).symm⟩
  · cases h
  · cases h

theorem exists_splitTail_of_withAuthority? (h : withAuthority? scheme t = some u) :
    ∃ special rest, u.query = (splitTail special rest).2.query := by
  unfold withAuthority? at h
  dsimp only at h
  obtain ⟨a, -, h⟩ := Option.bind_eq_some_iff.1 h
  cases h
  exact ⟨_, _, rfl⟩

theorem exists_splitTail_of_parse? (h : parse? t = some u) :
    ∃ special rest, u.query = (splitTail special rest).2.query := by
  rcases parse?_cases h with ⟨scheme, rest, hauthority⟩ | ⟨-, hquery⟩
  · exact exists_splitTail_of_withAuthority? hauthority
  · exact hquery

theorem oneLine_query (h : parse? t = some u) : ∀ q ∈ u.query, Form.oneLine q = q := by
  intro q hq
  obtain ⟨special, rest, hquery⟩ := exists_splitTail_of_parse? h
  obtain ⟨t, rfl⟩ := encoded_of_splitTail (hquery.symm.trans hq)
  exact Form.oneLine_encode _ t

end Url

namespace RegistryInfo

open Form Registry

variable {own service : Option Text} {realm repository : Text} {u : Url}

def asked (service : Option Text) (repository : Text) : List (Text × Text) :=
  (service.filter fun s => s ≠ []).toList.map (Prod.mk "service".toList) ++
    [("scope".toList, "repository:".toList ++ repository ++ ":pull".toList)]

theorem isName_service : IsName "service".toList := ⟨rfl, by decide⟩

theorem isName_scope : IsName "scope".toList := ⟨rfl, by decide⟩

theorem isName_of_mem_asked {p : Text × Text} (hp : p ∈ asked service repository) :
    IsName p.1 := by
  rcases List.mem_append.1 hp with hp | hp
  · obtain ⟨s, -, rfl⟩ := List.mem_map.1 hp
    exact isName_service
  · rw [List.mem_singleton.1 hp]
    exact isName_scope

theorem tokenQuery_eq (own service : Option Text) (repository : Text) :
    tokenQuery own service repository =
      Text.joinWith ['&'] ((own.filter fun t => t ≠ []).toList ++
        (asked service repository).map fun p => p.1 ++ '=' :: p.2) := by
  rw [asked, List.map_append, List.map_map, ← List.append_assoc]
  rfl

theorem isLiteral_scope (repository : Text) :
    isLiteral ("repository:".toList ++ repository ++ ":pull".toList) = isLiteral repository := by
  have htext : "repository:".toList ++ repository ++ ":pull".toList =
      "repository".toList ++ ':' :: (repository ++ ':' :: "pull".toList) := rfl
  have hlead : isLiteral "repository".toList = true := rfl
  have htail : isLiteral "pull".toList = true := rfl
  rw [htext, isLiteral_append (by decide) (by decide) rfl,
    isLiteral_append (by decide) (by decide) rfl, hlead, htail, Bool.true_and, Bool.and_true]

theorem forall_mem_asked_iff : (∀ p ∈ asked service repository, isLiteral p.2) ↔
    (∀ s ∈ service, isLiteral s) ∧ isLiteral repository := by
  rw [asked, List.forall_mem_append, List.forall_mem_singleton, isLiteral_scope]
  refine and_congr_left fun _ => ?_
  cases service with
  | none => simp
  | some s =>
      cases s with
      | nil =>
          have hempty : isLiteral [] = true := rfl
          simp [hempty]
      | cons c s => simp

theorem pairs_inQuery (u : Url) (t : Text) : pairs (inQuery u t) = pairs (oneLine t) :=
  pairs_encode (keeps_querySet u.isSpecial) _

theorem pairs_tokenQuery (hown : ∀ q ∈ own, oneLine q = q) (u : Url) :
    pairs (inQuery u (tokenQuery own service repository)) = pairs (own.getD []) ++
      (asked service repository).flatMap fun p => pairs (oneLine (p.1 ++ '=' :: p.2)) := by
  have hparts : ((own.filter fun t => t ≠ []).toList.map oneLine).flatMap pairs =
      pairs (own.getD []) := by
    cases own with
    | none => rfl
    | some q =>
        cases q with
        | nil => rfl
        | cons c q =>
            have hline : oneLine (c :: q) = c :: q := hown _ rfl
            change [oneLine (c :: q)].flatMap pairs = _
            rw [hline, List.flatMap_singleton]
            rfl
  rw [pairs_inQuery, tokenQuery_eq, oneLine_joinWith, pairs_joinWith, List.map_append,
    List.flatMap_append, hparts, List.map_map, List.flatMap_map]
  rfl

theorem tokenUrl_reads_back_iff (h : Url.parse? realm = some u) (service : Option Text)
    (repository : Text) :
    ∃ q, tokenUrlOf realm service repository = some { u with query := some q }.toText ∧
      (pairs q = pairs (u.query.getD []) ++ asked service repository ↔
        (∀ s ∈ service, isLiteral s) ∧ isLiteral repository) := by
  refine ⟨inQuery u (tokenQuery u.query service repository), ?_, ?_⟩
  · rw [tokenUrlOf, h]
    rfl
  · rw [pairs_tokenQuery (Url.oneLine_query h), List.append_cancel_left_eq,
      flatMap_pairs_oneLine_iff fun p hp => isName_of_mem_asked hp, forall_mem_asked_iff]

theorem tokenUrl_of_query_reads_back :
    ∃ q, tokenUrlOf "https://r.example/token?a=b%26#c".toList (some "my registry".toList)
        "org/os".toList = some ("https://r.example/token?".toList ++ q ++ "#c".toList) ∧
      pairs q = [("a".toList, "b&".toList), ("service".toList, "my registry".toList),
        ("scope".toList, "repository:org/os:pull".toList)] := by
  have hrealm : Url.parse? "https://r.example/token?a=b%26#c".toList = some
      ⟨"https".toList, [], [], some (.domain "r.example".toList), none, .segments ["token".toList],
        some "a=b%26".toList, some "c".toList⟩ := by decide
  have hservice : ∀ s ∈ some "my registry".toList, isLiteral s := fun s hs => by
    cases hs
    rfl
  obtain ⟨q, hurl, hpairs⟩ :=
    tokenUrl_reads_back_iff hrealm (some "my registry".toList) "org/os".toList
  exact ⟨q, hurl, (hpairs.2 ⟨hservice, rfl⟩).trans (by decide)⟩

theorem tokenUrl_asks_for_two_repositories :
    ImageName.parse "r.example/org/os:pull&scope=repository:org/secret".toList =
        .ok ⟨"r.example".toList, "org/os:pull&scope=repository:org/secret".toList⟩ ∧
      tokenUrlOf "https://r.example/token".toList none
          "org/os:pull&scope=repository:org/secret".toList =
        some ("https://r.example/token?".toList ++
          "scope=repository:org/os:pull&scope=repository:org/secret:pull".toList) ∧
      pairs "scope=repository:org/os:pull&scope=repository:org/secret:pull".toList =
        [("scope".toList, "repository:org/os:pull".toList),
          ("scope".toList, "repository:org/secret:pull".toList)] ∧
      pairs "scope=repository:org/os:pull&scope=repository:org/secret:pull".toList ≠
        asked none "org/os:pull&scope=repository:org/secret".toList := by
  exact ⟨rfl, by decide, by decide, by decide⟩

end RegistryInfo

end NetBoot
