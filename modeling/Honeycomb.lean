import Honeycomb.Main
import Honeycomb.Collection.Order
import Honeycomb.Selection.Display
import Honeycomb.Trajectory
import Honeycomb.Proofs.Crystal.Sublattice
import Honeycomb.Proofs.Number.Real
import Honeycomb.Proofs.Geometry.Vec3
import Honeycomb.Proofs.Chirality.Indices
import Honeycomb.Proofs.Crystal.Tiling
import Honeycomb.Proofs.Chirality.Screw
import Honeycomb.Proofs.Chirality.Periods
import Honeycomb.Proofs.Chirality.Sheet
import Honeycomb.Proofs.Number.Order
import Honeycomb.Proofs.Selection.Grammar
import Honeycomb.Proofs.Selection.Meaning
import Honeycomb.Proofs.Selection.Parsing
import Honeycomb.Proofs.Neighbor.Rows
import Honeycomb.Proofs.Collection.Operation
import Honeycomb.Proofs.Collection.Revision
import Honeycomb.Proofs.Selection.Supplied
import Honeycomb.Proofs.Collection.References
import Honeycomb.Proofs.Collection.Axes
import Honeycomb.Proofs.Collection.TypeTable
import Honeycomb.Proofs.Number.Decimal
import Honeycomb.Proofs.File.DataText
import Honeycomb.Proofs.File.DataReading
import Honeycomb.Proofs.File.DeclaredTypes
import Honeycomb.Proofs.File.DataRoundTrip
import Honeycomb.Proofs.Collection.Numbering
import Honeycomb.Proofs.File.XyzRoundTrip
import Honeycomb.Proofs.File.Conversion
import Honeycomb.Proofs.Structure.Making
import Honeycomb.Proofs.Structure.Census
import Honeycomb.Proofs.Structure.Workshop
import Honeycomb.Proofs.Structure.Saving
import Honeycomb.Proofs.Selection.Rendering
import Honeycomb.Proofs.Number.Rank
import Honeycomb.Proofs.Neighbor.Nearest
import Honeycomb.Proofs.Collection.Coordination
import Honeycomb.Proofs.Selection.Composition
import Honeycomb.Proofs.Selection.Refusal
import Honeycomb.Proofs.File.SectionOrder
import Honeycomb.Proofs.Geometry.Rotation
import Honeycomb.Proofs.Collection.RigidMotion
import Honeycomb.Proofs.Trajectory
import Honeycomb.Proofs.Crystal.Scan
import Honeycomb.Proofs.Crystal.Repeats
import Honeycomb.Proofs.Chirality.SymmetryVector
import Honeycomb.Proofs.Structure.Stacking
import Honeycomb.Proofs.Number.Nonnegative
import Honeycomb.Proofs.Neighbor.Query
import Honeycomb.Proofs.Neighbor.Ties
import Honeycomb.Proofs.Chirality.Listing
import Honeycomb.Proofs.Selection.Faults
import Honeycomb.Proofs.Selection.Places
import Honeycomb.Proofs.Selection.Balance
import Honeycomb.Proofs.Number.Characters
import Honeycomb.Proofs.Selection.Assignments
import Honeycomb.Proofs.Selection.Regions
import Honeycomb.Proofs.Number.TotalOrder
import Honeycomb.Proofs.Collection.Sorting
import Honeycomb.Proofs.Collection.ElementTypes
import Honeycomb.Proofs.File.XyzAccepted
import Honeycomb.Proofs.File.XyzCell
import Honeycomb.Proofs.Chirality.Filters
import Honeycomb.Proofs.Structure.Sites
import Honeycomb.Proofs.Geometry.PiOrbital
import Honeycomb.Proofs.Crystal.Parameters
import Honeycomb.Proofs.Crystal.Coordinates
import Honeycomb.Proofs.Atom.Fields
import Honeycomb.Proofs.Atom.Assignment
import Honeycomb.Proofs.File.Paths
import Honeycomb.Proofs.Structure.FailedSaves
import Honeycomb.Proofs.Structure.SavedNames
import Honeycomb.Proofs.Geometry.BoundVector
import Honeycomb.Proofs.Chirality.Divisions
import Honeycomb.Proofs.Number.Overflow
import Honeycomb.Proofs.Crystal.Words
import Honeycomb.Proofs.File.Places
import Honeycomb.Proofs.Structure.TubeNames
