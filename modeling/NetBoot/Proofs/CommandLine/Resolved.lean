import NetBoot.CommandLine.Report
import NetBoot.Proofs.Dialogue.Runs
import NetBoot.Proofs.Registry.Calls
import NetBoot.Proofs.Success

namespace NetBoot

open Http
open Dialogue (steady)

variable {answer : Call → Except CallError Reply} {cache : AuthCache}

namespace ResolveReport

end ResolveReport

namespace RegistryOptions

end RegistryOptions

namespace ResolveOptions

variable {o : ResolveOptions} {readFile : RegistryConfig.FileReader} {report : ResolveReport}

end ResolveOptions

end NetBoot
