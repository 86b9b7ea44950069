import NetBoot.Text.Utf8

namespace NetBoot.Http

structure Target where
  path : Text
  query : Option Text
  deriving DecidableEq, Repr

namespace Target

def lengthLimit : Nat := 65534

def isBeyondAscii (c : Char) : Bool := 0x7F ≤ c.toNat

def isQueryChar (c : Char) : Bool :=
  let n := c.toNat
  n = 0x21 || (0x24 ≤ n && n ≤ 0x3B) || n = 0x3D || (0x3F ≤ n && n ≤ 0x7E) || isBeyondAscii c

def isPathChar (c : Char) : Bool :=
  (isQueryChar c && c ≠ '?' && c.toNat ≠ 0x60) || c = '"'

def withoutFragment (t : Text) : Text := t.takeWhile (· ≠ '#')

def ofPath? (t : Text) : Option Target :=
  let t := withoutFragment t
  let path := t.takeWhile (· ≠ '?')
  let query :=
    match t.dropWhile (· ≠ '?') with
    | [] => none
    | _ :: query => some query
  if path.all isPathChar ∧ (query.getD []).all isQueryChar then
    some ⟨if path = [] then ['/'] else path, query⟩
  else none

def isAuthorityChar (c : Char) : Bool :=
  c.isAlphanum || c ∈ "!$&'()*+,-.:;=@[]_~%".toList

def isAuthorityEnd (c : Char) : Bool := c = '/' || c = '?' || c = '#'

def isHostPort (t : Text) : Bool :=
  let brackets := t.filter fun c => c = '[' || c = ']'
  let afterBracket :=
    match Text.splitLast ']' t with
    | some (_, rest) => rest
    | none => t
  (brackets = [] || brackets = ['[', ']']) && (afterBracket.count ':' ≤ 1) &&
    ('%' ∉ afterBracket)

def isAuthority (t : Text) : Bool :=
  t ≠ [] && t.all isAuthorityChar &&
    match Text.splitLast '@' t with
    | some (_, host) => host ≠ [] && isHostPort host
    | none => isHostPort t

def isSchemeChar (c : Char) : Bool := c.isAlphanum || c = '+' || c = '-' || c = '.'

def afterScheme? (t : Text) : Option Text :=
  match t.takeWhile isSchemeChar, t.dropWhile isSchemeChar with
  | _ :: _, ':' :: '/' :: '/' :: rest => some rest
  | _, _ => none

def parse? (t : Text) : Option Target :=
  if lengthLimit < (Utf8.encode t).length then none
  else
    match t with
    | [] => none
    | ['*'] => some ⟨['*'], none⟩
    | '/' :: _ => ofPath? t
    | _ =>
        match afterScheme? t with
        | some rest =>
            if isAuthority (rest.takeWhile fun c => !isAuthorityEnd c) then
              ofPath? (rest.dropWhile fun c => !isAuthorityEnd c)
            else none
        | none => if isAuthority t then some ⟨[], none⟩ else none

end Target

end NetBoot.Http
