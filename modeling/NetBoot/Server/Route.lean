import NetBoot.Text.Utf8
import NetBoot.Url.Percent

namespace NetBoot

inductive Route where
  | image
  | httpBoot (path : Text)
  | drive (file : Text)
  | health
  deriving DecidableEq, Repr

namespace Route

def ofPath? (path : Text) : Option Route :=
  if path = "/image".toList then some .image
  else if path = "/healthz".toList then some .health
  else
    match Text.after? "/httpboot/".toList path with
    | some (c :: rest) => some (.httpBoot (c :: rest))
    | _ =>
        match Text.after? "/config-drive/".toList path with
        | some (c :: rest) => if '/' ∈ c :: rest then none else some (.drive (c :: rest))
        | _ => none

def decode? (t : Text) : Option Text := Utf8.decode? (Percent.decode (Utf8.encode t))

end Route

end NetBoot
