import NetBoot.Text.Basic

namespace NetBoot

abbrev MediaType := Text

namespace MediaType

def ociManifest : MediaType := "application/vnd.oci.image.manifest.v1+json".toList

def ociIndex : MediaType := "application/vnd.oci.image.index.v1+json".toList

def dockerManifest : MediaType := "application/vnd.docker.distribution.manifest.v2+json".toList

def dockerManifestList : MediaType :=
  "application/vnd.docker.distribution.manifest.list.v2+json".toList

def kernel : MediaType := "application/io.gardenlinux.kernel".toList

def kernelLegacy : MediaType := "application/vnd.ironcore.image.vmlinuz.v1alpha1.vmlinuz".toList

def initrd : MediaType := "application/io.gardenlinux.initrd".toList

def initrdLegacy : MediaType :=
  "application/vnd.ironcore.image.initramfs.v1alpha1.initramfs".toList

def squashfs : MediaType := "application/io.gardenlinux.squashfs".toList

def squashfsLegacy : MediaType :=
  "application/vnd.ironcore.image.squashfs.v1alpha1.squashfs".toList

def uki : MediaType := "application/vnd.ironcore.image.uki".toList

def iso : MediaType := "application/vnd.ironcore.image.iso".toList

def efi : MediaType := "application/efi".toList

def isIndex (m : MediaType) : Bool := m = ociIndex || m = dockerManifestList

def isManifest (m : MediaType) : Bool := m = ociManifest || m = dockerManifest

def manifestAccept : Text :=
  Text.joinWith ", ".toList [ociIndex, ociManifest, dockerManifestList, dockerManifest]

theorem isManifest_eq_false_of_isIndex {m : MediaType} (h : isIndex m) : isManifest m = false := by
  simp only [isIndex, Bool.or_eq_true, decide_eq_true_eq] at h
  rcases h with rfl | rfl <;> decide

end MediaType

end NetBoot
