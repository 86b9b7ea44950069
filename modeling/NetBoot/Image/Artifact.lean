import NetBoot.Image.MediaType

namespace NetBoot

inductive Artifact where
  | kernel
  | initrd
  | squashfs
  | uki
  | iso
  deriving DecidableEq, Repr

namespace Artifact

def all : List Artifact := [.kernel, .initrd, .squashfs, .uki, .iso]

def pxe : List Artifact := [.kernel, .initrd, .squashfs]

def mediaTypes : Artifact → List MediaType
  | .kernel => [MediaType.kernel, MediaType.kernelLegacy]
  | .initrd => [MediaType.initrd, MediaType.initrdLegacy]
  | .squashfs => [MediaType.squashfs, MediaType.squashfsLegacy]
  | .uki => [MediaType.uki]
  | .iso => [MediaType.iso]

def fileSuffix : Artifact → Text
  | .kernel => ".vmlinuz".toList
  | .initrd => ".initrd".toList
  | .squashfs => ".squashfs".toList
  | .uki => ".efi".toList
  | .iso => ".iso".toList

def toText : Artifact → Text
  | .kernel => "kernel".toList
  | .initrd => "initrd".toList
  | .squashfs => "squashfs".toList
  | .uki => "UKI".toList
  | .iso => "ISO".toList

def ofMediaType? (m : MediaType) : Option Artifact := all.find? fun k => m ∈ k.mediaTypes

theorem mem_all (k : Artifact) : k ∈ all := by cases k <;> decide

end Artifact

end NetBoot
