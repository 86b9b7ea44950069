import NetBoot.Url.Host

namespace NetBoot

inductive SocketAddress where
  | v4 (address port : Nat)
  | v6 (pieces : List Nat) (scope port : Nat)
  deriving DecidableEq, Repr

namespace SocketAddress

open Url

def port? (t : Text) : Option Nat := (Text.natural? t).filter (· < 65536)

def ipv4? (t : Text) : Option Nat :=
  match (Text.splitAll '.' t).mapM Host.byte? with
  | some [a, b, c, d] => some (16777216 * a + 65536 * b + 256 * c + d)
  | _ => none

def ipv6? (t : Text) : Option (List Nat × Nat) :=
  let (address, scope) :=
    match Text.splitOnce '%' t with
    | some (address, scope) => (address, (Text.natural? scope).filter (· < 4294967296))
    | none => (t, some 0)
  match Host.ipv6? address, scope with
  | some (.ipv6 pieces), some scope => some (pieces, scope)
  | _, _ => none

def parse? (t : Text) : Option SocketAddress :=
  match t with
  | '[' :: rest =>
      match Text.splitOnce ']' rest with
      | some (inner, ':' :: port) =>
          match ipv6? inner, port? port with
          | some (pieces, scope), some port => some (.v6 pieces scope port)
          | _, _ => none
      | _ => none
  | _ =>
      match Text.splitOnce ':' t with
      | some (address, port) =>
          match ipv4? address, port? port with
          | some address, some port => some (.v4 address port)
          | _, _ => none
      | none => none

def ipv6Text (pieces : List Nat) : Text :=
  match pieces with
  | [0, 0, 0, 0, 0, 0xFFFF, high, low] =>
      "::ffff:".toList ++ Host.ipv4Text (65536 * high + low)
  | _ => Host.ipv6Text pieces

def toText : SocketAddress → Text
  | .v4 address port => Host.ipv4Text address ++ ':' :: Text.digits port
  | .v6 pieces scope port =>
      '[' :: ipv6Text pieces ++ (if scope = 0 then [] else '%' :: Text.digits scope) ++
        [']', ':'] ++ Text.digits port

end SocketAddress

end NetBoot
