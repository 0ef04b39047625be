import PlaneSketch.Config.Reader
import PlaneSketch.Document
import PlaneSketch.LinearAlgebra.Svd
import PlaneSketch.Proofs.Addressing
import PlaneSketch.Proofs.Fixpoint
import PlaneSketch.Proofs.Inactive
import PlaneSketch.Proofs.Intrinsic
import PlaneSketch.Proofs.Linkage.Coherence
import PlaneSketch.Proofs.Linkage.Substitution
import PlaneSketch.Proofs.Neighbours
import PlaneSketch.Proofs.Optimize.Derivatives
import PlaneSketch.Proofs.Optimize.Model
import PlaneSketch.Proofs.Optimize.Numbers
import PlaneSketch.Proofs.Optimize.RangeStep
import PlaneSketch.Proofs.Optimize.Readmission
import PlaneSketch.Proofs.Plane.Sector
import PlaneSketch.Proofs.Plane.Segments
import PlaneSketch.Proofs.Reachable
import PlaneSketch.Proofs.Recreation
import PlaneSketch.Proofs.Reentry.Stages
import PlaneSketch.Proofs.Resolve
import PlaneSketch.Solver.Session
