import UltraLocked.Format.DerivedKey
import UltraLocked.Format.RoundTrip
import UltraLocked.Format.BuildSuccess

/-!
# Export on one device, import on another

Two devices share the file format and the ciphers. Random numbers, the way their
encoders lay out a manifest, what is in the memory they allocate and the order in
which they run the threads of libargon2 are their own.
-/

namespace UltraLocked.Format

open Library BundleBuilder BundleParser

/-- A device with the vendored library on it. -/
structure Device where
  kit : CryptoKit
  json : JSONCoding Manifest
  random : SystemRandom
  machine : CArgon2.Machine

/-- What the package calls on a device. -/
def Device.platform (device : Device) : Platform where
  kit := device.kit
  argon2 := Argon2id.argon2idHashRaw device.machine
  json := device.json
  random := device.random

namespace Exchanges

variable {exporting importing : Device}

/-- The platform that encodes and draws like one device and decodes like the other. -/
def joint (exporting importing : Device) : Platform where
  kit := exporting.kit
  argon2 := Argon2id.argon2idHashRaw exporting.machine
  json := ⟨exporting.json.encode, importing.json.decode⟩
  random := exporting.random

end Exchanges

end UltraLocked.Format
