import NetBoot.Text.Base64
import NetBoot.Text.Utf8

namespace NetBoot.Certificate

def beginLine : Text := "-----BEGIN CERTIFICATE-----".toList

def endLine : Text := "-----END CERTIFICATE-----".toList

def armouredLines : List Text → Option (List Text)
  | [] => none
  | line :: rest =>
      if line = endLine then some [] else (armouredLines rest).map (line :: ·)

def trimLine (t : Text) : Text := Text.dropEndWhile Char.isWhitespace t

def armoured? (t : Text) : Option Bytes :=
  match ((Text.splitAll '\n' t).map trimLine).dropWhile (fun line => line ≠ beginLine) with
  | [] => none
  | _ :: rest => (armouredLines rest).bind fun lines => Base64.decode? lines.flatten

structure Element where
  tag : Nat
  content : Bytes

def lengthOf? : Bytes → Option (Nat × Bytes)
  | [] => none
  | b :: rest =>
      if b < 0x80 then some (b.toNat, rest)
      else
        let count := b.toNat - 0x80
        if count = 0 ∨ 4 < count ∨ rest.length < count then none
        else some ((rest.take count).foldl (fun n b => 256 * n + b.toNat) 0, rest.drop count)

def element? : Bytes → Option (Element × Bytes)
  | [] => none
  | tag :: rest =>
      match lengthOf? rest with
      | none => none
      | some (n, rest) =>
          if rest.length < n then none else some (⟨tag.toNat, rest.take n⟩, rest.drop n)

def elements? : Nat → Bytes → Option (List Element)
  | _, [] => some []
  | 0, _ => none
  | fuel + 1, bs =>
      match element? bs with
      | none => none
      | some (e, rest) => (elements? fuel rest).map (e :: ·)

def parts? (bs : Bytes) : Option (List Element) := elements? bs.length bs

def sequenceTag : Nat := 0x30

def hasBodyShape (fields : List Element) : Bool :=
  match fields with
  | serial :: algorithm :: issuer :: validity :: subject :: key :: extra =>
      serial.tag = 0x02 && serial.content ≠ [] &&
        [algorithm, issuer, validity, subject, key].all (fun e => e.tag = sequenceTag) &&
        [issuer, subject, key].all (fun e => (parts? e.content).isSome) &&
        (match parts? algorithm.content with
          | some (e :: _) => e.tag = 0x06
          | _ => false) &&
        (match parts? validity.content with
          | some [a, b] => [a, b].all fun e => e.tag = 0x17 || e.tag = 0x18
          | _ => false) &&
        extra.all fun e => e.tag = 0x81 || e.tag = 0x82 || e.tag = 0xA3
  | _ => false

def hasBody (content : Bytes) : Bool :=
  match parts? content with
  | none => false
  | some fields =>
      match fields with
      | e :: rest => if e.tag = 0xA0 then hasBodyShape rest else hasBodyShape fields
      | [] => false

def isWellFormed (bs : Bytes) : Bool :=
  match element? bs with
  | none => false
  | some (e, _) =>
      e.tag = sequenceTag &&
        match parts? e.content with
        | some [body, algorithm, signature] =>
            body.tag = sequenceTag && hasBody body.content && algorithm.tag = sequenceTag &&
              (parts? algorithm.content).isSome && signature.tag = 0x03 && signature.content ≠ []
        | _ => false

def isUsable (file : Bytes) : Bool :=
  match armoured? (Utf8.decodeLossy file) with
  | none => false
  | some bs => isWellFormed bs

end NetBoot.Certificate
