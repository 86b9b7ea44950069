import NetBoot.Text.Basic

namespace NetBoot

inductive DriveError where
  | notFound (id : Text)
  | unrendered (id reason : Text)
  deriving DecidableEq, Repr

namespace DriveError

def message : DriveError → Text
  | .notFound id => "config drive '".toList ++ id ++ "' not found".toList
  | .unrendered id reason =>
      "config drive '".toList ++ id ++ "' could not be rendered: ".toList ++ reason

end DriveError

end NetBoot
