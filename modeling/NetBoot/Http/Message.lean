import NetBoot.Http.Status
import NetBoot.Http.Wire

namespace NetBoot.Http

structure MessageHead where
  line : Text
  headers : Headers
  deriving DecidableEq, Repr

namespace MessageHead

def split? : Bytes → Option (Bytes × Bytes)
  | [] => none
  | b :: rest =>
      match b :: rest with
      | 0x0D :: 0x0A :: 0x0D :: 0x0A :: body => some ([], body)
      | _ => (split? rest).map fun p => (b :: p.1, p.2)

def isMargin (c : Char) : Bool := c = ' ' || c = '\t' || c = '\r'

def field? (line : Text) : Option (Text × Text) :=
  (Text.splitOnce ':' line).map fun p => (Text.lower p.1, Text.trimWith isMargin p.2)

def ofText (t : Text) : MessageHead :=
  match Text.splitAll '\n' t with
  | [] => ⟨[], []⟩
  | line :: fields => ⟨Text.dropEndWhile isMargin line, fields.filterMap field?⟩

def endOfLine : Text := ['\r', '\n']

def toText (h : MessageHead) : Text :=
  h.line ++ endOfLine ++
    h.headers.flatMap (fun p => p.1 ++ [':', ' '] ++ p.2 ++ endOfLine) ++ endOfLine

def read? (bs : Bytes) : Option (MessageHead × Bytes) :=
  (split? bs).map fun p => (ofText (Utf8.decodeLossy p.1), p.2)

end MessageHead

namespace Message

def chunkSize? (line : Text) : Option Nat :=
  match line.takeWhile fun c => (Hex.value? c).isSome with
  | [] => none
  | digits => some (digits.foldl (fun n c => 16 * n + (Hex.value? c).getD 0) 0)

def splitLine : Bytes → Option (Bytes × Bytes)
  | [] => none
  | b :: rest =>
      if b == 0x0A then some ([], rest) else (splitLine rest).map fun p => (b :: p.1, p.2)

def unchunk : (count : Nat) → Bytes → Bytes × Bool
  | 0, _ => ([], false)
  | count + 1, bs =>
      match splitLine bs with
      | none => ([], false)
      | some (line, rest) =>
          match chunkSize? (Utf8.decodeLossy line) with
          | none => ([], false)
          | some 0 => ([], true)
          | some n =>
              if rest.length < n + 2 then (rest.take n, false)
              else
                let (content, whole) := unchunk count (rest.drop (n + 2))
                (rest.take n ++ content, whole)

def transferEncodingName : Text := "transfer-encoding".toList

def connectionName : Text := "connection".toList

def body (method : Method) (status : Nat) (headers : Headers) (bs : Bytes) : Body :=
  if method = .head ∨ status = 204 ∨ status = 304 then ⟨[], .whole, some 0⟩
  else if headers.first? transferEncodingName = some "chunked".toList then
    let (content, whole) := unchunk bs.length bs
    ⟨content, .ofWhole whole, none⟩
  else
    match (headers.first? contentLengthName).bind Text.natural? with
    | some n => ⟨bs.take n, .ofWhole (n ≤ bs.length), some n⟩
    | none => ⟨bs, .whole, none⟩

def status? (line : Text) : Option Nat :=
  match Text.splitAll ' ' line with
  | _ :: status :: _ => Text.natural? status
  | _ => none

def answer? (method : Method) (bs : Bytes) : Option Answer := do
  let (head, rest) ← MessageHead.read? bs
  let status ← status? head.line
  return .response status head.headers (body method status head.headers rest)

def overdueBody (b : Body) : Body :=
  if b.length.isSome && b.whole then b else { b with ending := .timedOut }

def overdueAnswer? (method : Method) (bs : Bytes) : Option Answer :=
  match answer? method bs with
  | some (.response status headers body) => some (.response status headers (overdueBody body))
  | _ => none

def pathAndQuery (u : Url) : Text := u.path.toText ++ u.queryText

def hostField (u : Url) : Text :=
  match u.port with
  | some n => u.hostText ++ ':' :: Text.digits n
  | none => u.hostText

def ofRequest (r : Request) : Bytes :=
  Utf8.encode (MessageHead.toText
    ⟨r.method.toText ++ ' ' :: pathAndQuery r.url ++ " HTTP/1.1".toList,
      (hostName, hostField r.url) :: r.headers ++ [(connectionName, "close".toList)]⟩)

def ofResponse (status : Nat) (headers : Headers) (content : Bytes) : Bytes :=
  Utf8.encode (MessageHead.toText
    ⟨"HTTP/1.1 ".toList ++ statusText status, headers ++ [(connectionName, "close".toList)]⟩) ++
    content

end Message

end NetBoot.Http
