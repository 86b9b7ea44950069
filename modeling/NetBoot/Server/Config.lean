import NetBoot.Drive.Cache
import NetBoot.Net.SocketAddress

namespace NetBoot

structure ServerConfig where
  address : SocketAddress := .v4 0 8083
  architecture : Text := "amd64".toList
  driveTtl : Time := 300000 * millisecond
  driveMaxSize : Nat := 104857600
  deriving DecidableEq, Repr

namespace ServerConfig

def driveCache (c : ServerConfig) : DriveCache where
  ttl := c.driveTtl
  maxSize := c.driveMaxSize

end ServerConfig

end NetBoot
