import NetBoot.Http.Script
import NetBoot.Main
import NetBoot.Proofs.Dialogue
import NetBoot.Proofs.Dialogue.Runs
import NetBoot.Proofs.Image.TaggedName
import NetBoot.Proofs.Registry.Calls
import NetBoot.Proofs.Server.Admission
import NetBoot.Proofs.Registry.Provenance
import NetBoot.Proofs.Image.DocumentKinds
import NetBoot.Proofs.Registry.Pinned
import NetBoot.Proofs.Registry.HeadFallback
import NetBoot.Proofs.Drive.Checked
import NetBoot.Proofs.Drive.Refinement
import NetBoot.Proofs.Drive.Sweeping
import NetBoot.Proofs.Drive.Contents
import NetBoot.Proofs.Drive.Interleaving
import NetBoot.Proofs.Drive.Transparency
import NetBoot.Proofs.Image.RoundTrip
import NetBoot.Proofs.Text.Utf8
import NetBoot.Proofs.Text.ByteOffset
import NetBoot.Proofs.Url.Encoding
import NetBoot.Proofs.Url.Path
import NetBoot.Proofs.Url.Authority
import NetBoot.Proofs.Url.HostName
import NetBoot.Proofs.Registry.Landing
import NetBoot.Proofs.Registry.Remembering
import NetBoot.Proofs.Registry.Lookups
import NetBoot.Proofs.Server.Forwarding
import NetBoot.Proofs.Server.Pipeline
import NetBoot.Proofs.Http.FieldOrder
import NetBoot.Proofs.Server.Credentials
import NetBoot.Proofs.Json.Scalars
import NetBoot.Proofs.Json.WrittenForm
import NetBoot.Proofs.Server.BootPath
import NetBoot.Proofs.CommandLine.Resolved
import NetBoot.Proofs.Registry.LayerByKind
import NetBoot.Proofs.Server.SameLayer
import NetBoot.Proofs.Image.WrittenForms
import NetBoot.Proofs.Image.ShownForms
import NetBoot.Proofs.Registry.BlockList
import NetBoot.Proofs.Registry.ChallengeScan
import NetBoot.Proofs.Registry.WrittenChallenge
import NetBoot.Proofs.Registry.TokenScope
import NetBoot.Proofs.Http.Redirects
import NetBoot.Proofs.Registry.Home
import NetBoot.Proofs.Server.HandingOn
import NetBoot.Proofs.Registry.EntrySelection
import NetBoot.Proofs.Registry.LayerAssignment
import NetBoot.Proofs.Registry.TypeSources
import NetBoot.Proofs.Server.TwoRoutes
import NetBoot.Proofs.Server.BlobRedirect
import NetBoot.Proofs.Server.ReplyHeaders
import NetBoot.Proofs.Image.CanonicalName
import NetBoot.Proofs.Registry.ListedDomains
import NetBoot.Proofs.Drive.SweptOnTime
import NetBoot.Proofs.Registry.TokenAnswer
import NetBoot.Proofs.Server.TokenRequired
