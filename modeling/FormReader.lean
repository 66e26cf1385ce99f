import FormReader.Form.Walk
import FormReader.Form.Depth
import FormReader.Form.Representable
import FormReader.Cursor.Lemmas
import FormReader.Cursor.Script
import FormReader.Session
import FormReader.Layout
import FormReader.Forward
import FormReader.Proofs.Steadiness
import FormReader.Proofs.Bytes
import FormReader.Proofs.Scanning
import FormReader.Proofs.Lookahead
import FormReader.Proofs.Layouts
import FormReader.Proofs.Machine
import FormReader.Proofs.Parsing
import FormReader.Proofs.RoundTrip
import FormReader.Proofs.Abreast
import FormReader.Proofs.KeepingPace
import FormReader.Proofs.Exhaustion
import FormReader.Gauge
import FormReader.Proofs.Gauging
import FormReader.Proofs.Completeness
import FormReader.Proofs.InTurn
import FormReader.Proofs.Nesting
import FormReader.Proofs.Actions
import FormReader.Proofs.Afresh
import FormReader.Proofs.Rewinding
import FormReader.Proofs.Warnings
import FormReader.Proofs.Iteration
import FormReader.Plan
import FormReader.Trail
import FormReader.Proofs.Ground
import FormReader.Proofs.Plans
import FormReader.Proofs.Footing
import FormReader.Proofs.InRange
import FormReader.Proofs.Boundaries
import FormReader.Proofs.Trails
import FormReader.Proofs.Enclosed
import FormReader.Proofs.Concatenation
import FormReader.Proofs.Relayout
import FormReader.Proofs.FirstRequest
import FormReader.Denotation
import FormReader.Proofs.Denotation
import FormReader.Proofs.Locality
import FormReader.Turns
import FormReader.Proofs.Turns
import FormReader.LeftOpen
import FormReader.Proofs.LeftOpen
import FormReader.Proofs.Diagnoses
import FormReader.Form.Tally
import FormReader.Rewinds
import FormReader.Rounds
import FormReader.Proofs.Tallies
import FormReader.Proofs.Progress
import FormReader.Proofs.Rewinds
import FormReader.Cursor.Course
import FormReader.Proofs.Courses
import FormReader.Alternatives
import FormReader.Proofs.Alternatives
import FormReader.Cursor.Passing
import FormReader.Proofs.Moves
import FormReader.Gathering
import FormReader.Proofs.Gathering
