import LatticeLedger.Symmetry.Check

/-!
# Certificates

A certificate describes the symmetry group of the lattice in a form that a file can hold: its
generators, the bases of the certified anchors, and sampled points of their orbits. Its checksum
covers everything else in it, so that an accidental change shows.
-/

namespace LatticeLedger

open Symmetry

/-- A generator as a certificate describes it. -/
structure GeneratorEntry where
  index : UInt8
  target : Target
  bit : UInt8
  description : String
  deriving DecidableEq, Repr

/-- The entry of a generator. -/
def GeneratorEntry.ofGenerator (generator : Generator) : GeneratorEntry where
  index := UInt8.ofNat generator.val
  target := generator.target
  bit := UInt8.ofNat generator.bit
  description := generator.describe

/-- The base of an anchor's orbit. -/
structure AnchorPosition where
  anchor : UInt8
  row : UInt8
  col : UInt8
  deriving DecidableEq, Repr

/-- A point of an orbit, reached by walking and by folding its coordinate. -/
structure OrbitSample where
  anchor : UInt8
  grayIndex : UInt16
  grayCode : UInt16
  walked : GridPoint
  folded : GridPoint
  deriving DecidableEq, Repr

/-- All that a checksum covers. -/
structure CertificateBody where
  certificateType : String
  schemaVersion : UInt32
  description : String
  classes : UInt32
  anchors : UInt32
  orbitSize : UInt32
  coordsPerClass : UInt32
  foldRows : UInt32
  foldCols : UInt32
  order : UInt32
  rank : UInt32
  generators : List GeneratorEntry
  anchorPositions : List AnchorPosition
  orbitSamples : List OrbitSample
  deriving DecidableEq, Repr

/-- A body with a checksum recorded for it. -/
structure Certificate extends CertificateBody where
  checksum : String
  deriving DecidableEq, Repr

end LatticeLedger
