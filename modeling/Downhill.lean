import Downhill.Formula
import Downhill.Logging.Registry
import Downhill.Minimize
import Downhill.Operand.Direction
import Downhill.Operand.Search
import Downhill.Proofs.LineSearch.Memory
import Downhill.Proofs.LineSearch.Interpolation
import Downhill.Proofs.LineSearch.Bracket
import Downhill.Proofs.LineSearch.Doubling
import Downhill.Proofs.LineSearch.Zoom
import Downhill.Proofs.LineSearch.Exits
import Downhill.Proofs.Descent.Alignment
import Downhill.Proofs.Sampling.Passes
import Downhill.Proofs.Stochastic.Iteration
import Downhill.Proofs.Conjugate.Formula
import Downhill.Proofs.Conjugate.Iteration
import Downhill.Proofs.Conjugate.Termination
import Downhill.Proofs.Conjugate.Safeguard
import Downhill.Proofs.LineSearch.Ascent
import Downhill.Proofs.LineSearch.Interior
import Downhill.Proofs.LineSearch.Trials
import Downhill.Proofs.Steepest.Bounds
import Downhill.Proofs.Feasibility
import Downhill.Proofs.Coordinate.Stall
import Downhill.Proofs.Stochastic.Contraction
import Downhill.Proofs.Stochastic.Walk
import Downhill.Proofs.Stochastic.Stopping
import Downhill.Proofs.Descent.Raised
import Downhill.Proofs.OwnRule
import Downhill.Proofs.Descent.Failure
import Downhill.Proofs.Returning
import Downhill.Proofs.Conjugate.HagerZhang
import Downhill.Proofs.LineSearch.Polynomial
import Downhill.Proofs.LineSearch.Requests
import Downhill.Proofs.LineSearch.Budget
import Downhill.Proofs.Linear.Difference
import Downhill.Proofs.LineSearch.Best
import Downhill.Proofs.Sampling.Estimates
import Downhill.Proofs.Coordinate.Sweep
import Downhill.Proofs.Objective.Excess
import Downhill.Proofs.LineSearch.Shrinking
import Downhill.Proofs.Conjugate.Cadence
import Downhill.Proofs.Coordinate.Turns
import Downhill.Proofs.Coordinate.Joining
import Downhill.Proofs.Stochastic.Arrival
import Downhill.Proofs.Schedule
import Downhill.Proofs.Stochastic.Adaptive
import Downhill.Proofs.Stochastic.Seeded
import Downhill.Proofs.Validation
import Downhill.Proofs.Linear.Projection
import Downhill.Proofs.Logging
import Downhill.Proofs.LineSearch.Stagnation
