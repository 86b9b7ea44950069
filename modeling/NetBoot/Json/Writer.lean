import NetBoot.Json.Tree
import NetBoot.Text.Hex

namespace NetBoot.Json

def escapeChar (c : Char) : Text :=
  if c = '"' then ['\\', '"']
  else if c = '\\' then ['\\', '\\']
  else if c = '\n' then ['\\', 'n']
  else if c = '\r' then ['\\', 'r']
  else if c = '\t' then ['\\', 't']
  else if c = '\x08' then ['\\', 'b']
  else if c = '\x0c' then ['\\', 'f']
  else if c.toNat < 0x20 then
    ['\\', 'u', '0', '0', Hex.lowerDigit (c.toNat / 16), Hex.lowerDigit (c.toNat % 16)]
  else [c]

def writeText (t : Text) : Text := '"' :: t.flatMap escapeChar ++ ['"']

mutual

def Tree.render : Tree → Text
  | .fault .. => []
  | .null => "null".toList
  | .bool true => "true".toList
  | .bool false => "false".toList
  | .natural n => Text.digits n
  | .number _ => []
  | .text t => writeText t
  | .garbled => []
  | .array .close => ['[', ']']
  | .array (.fault _) => []
  | .array (.item v rest) => '[' :: v.render ++ rest.renderRest
  | .object .close => ['\x7b', '\x7d']
  | .object (.fault ..) => []
  | .object (.member k v rest) =>
      '\x7b' :: writeText (k.getD []) ++ ':' :: v.render ++ rest.renderRest

def Items.renderRest : Items → Text
  | .close => [']']
  | .fault _ => []
  | .item v rest => ',' :: v.render ++ rest.renderRest

def Members.renderRest : Members → Text
  | .close => ['\x7d']
  | .fault .. => []
  | .member k v rest => ',' :: writeText (k.getD []) ++ ':' :: v.render ++ rest.renderRest

end

def newLine (indent : Nat) : Text := '\n' :: List.replicate (2 * indent) ' '

mutual

def Tree.renderLines (indent : Nat) : Tree → Text
  | .array (.item v rest) =>
      '[' :: newLine (indent + 1) ++ v.renderLines (indent + 1) ++ rest.renderLines indent
  | .object (.member k v rest) =>
      '\x7b' :: newLine (indent + 1) ++ writeText (k.getD []) ++ ": ".toList ++
        v.renderLines (indent + 1) ++ rest.renderLines indent
  | .array .close => ['[', ']']
  | .object .close => ['\x7b', '\x7d']
  | .null => "null".toList
  | .bool true => "true".toList
  | .bool false => "false".toList
  | .natural n => Text.digits n
  | .text t => writeText t
  | _ => []

def Items.renderLines (indent : Nat) : Items → Text
  | .close => newLine indent ++ [']']
  | .fault _ => []
  | .item v rest =>
      ',' :: newLine (indent + 1) ++ v.renderLines (indent + 1) ++ rest.renderLines indent

def Members.renderLines (indent : Nat) : Members → Text
  | .close => newLine indent ++ ['\x7d']
  | .fault .. => []
  | .member k v rest =>
      ',' :: newLine (indent + 1) ++ writeText (k.getD []) ++ ": ".toList ++
        v.renderLines (indent + 1) ++ rest.renderLines indent

end

end NetBoot.Json
