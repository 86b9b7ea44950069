import NetBoot.CommandLine.Command
import NetBoot.Image.Document.Writer
import NetBoot.Registry.Resolver

namespace NetBoot

structure CommandFailure where
  context : Text
  causes : List Text
  deriving DecidableEq, Repr

namespace CommandFailure

def indented (indent : Text) (t : Text) : Text := Text.joinWith ('\n' :: indent) (Text.splitAll '\n' t)

def padLeft (width : Nat) (t : Text) : Text := List.replicate (width - t.length) ' ' ++ t

def numbered (n : Nat) : List Text → Text
  | [] => []
  | cause :: rest =>
      '\n' :: padLeft 5 (Text.digits n) ++ ": ".toList ++ indented "       ".toList cause ++
        numbered (n + 1) rest

def causesText : List Text → Text
  | [] => []
  | [cause] => "\n\nCaused by:\n    ".toList ++ indented "    ".toList cause
  | causes => "\n\nCaused by:".toList ++ numbered 0 causes

def message (f : CommandFailure) : Text := f.context ++ causesText f.causes

def ofRegistry (context : Text) (e : RegistryError) : CommandFailure :=
  ⟨context, e.message :: e.causes⟩

def ofAddress (a : SocketAddress) (reason : Text) : CommandFailure :=
  ⟨"Image proxy server failed".toList,
    ["cannot bind ".toList ++ a.toText ++ ": ".toList ++ reason, reason]⟩

end CommandFailure

namespace RegistryOptions

def checked (o : RegistryOptions) (readFile : RegistryConfig.FileReader) :
    Except CommandFailure RegistryConfig :=
  match o.config.check readFile with
  | .ok _ => .ok o.config
  | .error e => .error (.ofRegistry "Failed to create registry client".toList e)

end RegistryOptions

structure ResolveReport where
  reference : ImageReference
  architecture : Text
  layers : List (Artifact × Text)
  bootUrl : Option Text
  deriving DecidableEq, Repr

namespace ResolveReport

def kindOrder : List Artifact := [.iso, .uki, .initrd, .kernel, .squashfs]

def digestsOf (a : Selection.Assignment) : List (Artifact × Text) :=
  kindOrder.filterMap fun kind => (a.digest? kind).map fun digest => (kind, digest)

def padRight (width : Nat) (t : Text) : Text := t ++ List.replicate (width - t.length) ' '

def layerLine (p : Artifact × Text) : Text :=
  "  ".toList ++ padRight 10 p.1.toText ++ ' ' :: p.2

def lines (r : ResolveReport) : List Text :=
  ["Image:        ".toList ++ r.reference.toText,
    "Architecture: ".toList ++ r.architecture] ++
    r.layers.map layerLine ++
    (r.bootUrl.map ("HTTPBoot URL: ".toList ++ ·)).toList

def toTree (r : ResolveReport) : Json.Tree :=
  Document.writeObject
    ([("reference".toList, .text r.reference.toText),
      ("architecture".toList, .text r.architecture),
      ("layers".toList,
        Document.writeObject (r.layers.map fun p => (p.1.toText, .text p.2)))] ++
      Document.optional "httpboot_url".toList .text r.bootUrl)

def render (json : Bool) (r : ResolveReport) : Text :=
  if json then r.toTree.renderLines 0 ++ ['\n'] else r.lines.flatMap (· ++ ['\n'])

end ResolveReport

namespace ResolveOptions

abbrev Run := ExceptT CommandFailure (StateT AuthCache Http.Calls)

def ofExcept {α : Type} (x : Except CommandFailure α) : Run α := ExceptT.mk (pure x)

def inContext {α : Type} (context : Text) (x : Session α) : Run α :=
  ExceptT.mk fun cache =>
    (x.run cache).bind fun p => .done (p.1.mapError (CommandFailure.ofRegistry context), p.2)

def bootUrl (o : ResolveOptions) (r : Resolver) : Run (Option Text) :=
  match o.bootServer with
  | none => return none
  | some serverUrl =>
      some <$> inContext "Failed to build HTTPBoot URL".toList
        (r.httpBootUrl o.image serverUrl o.architecture)

def run (o : ResolveOptions) (readFile : RegistryConfig.FileReader) : Run ResolveReport := do
  let reference ← ofExcept ((ImageReference.parse o.image).mapError
    (CommandFailure.ofRegistry "Invalid image reference".toList))
  let config ← ofExcept (o.registry.checked readFile)
  let resolver : Resolver := { config }
  let a ← inContext ("Failed to resolve ".toList ++ reference.toText)
    (resolver.resolve reference o.architecture o.kind.artifacts)
  let url ← o.bootUrl resolver
  return ⟨reference, o.architecture, ResolveReport.digestsOf a, url⟩

end ResolveOptions

end NetBoot
