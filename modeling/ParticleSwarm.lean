import ParticleSwarm.Benchmark.Name
import ParticleSwarm.Command
import ParticleSwarm.Landscape
import ParticleSwarm.Main
import ParticleSwarm.Proofs.Coupling
import ParticleSwarm.Proofs.Run.Batch
import ParticleSwarm.Proofs.Run.Containment
import ParticleSwarm.Proofs.Run.Descent
import ParticleSwarm.Proofs.Run.Domain
import ParticleSwarm.Proofs.Run.Draws
import ParticleSwarm.Proofs.Run.Extension
import ParticleSwarm.Proofs.Run.Failure
import ParticleSwarm.Proofs.Run.Finiteness
import ParticleSwarm.Proofs.Run.FirstBest
import ParticleSwarm.Proofs.Run.FirstPass
import ParticleSwarm.Proofs.Run.Interruption
import ParticleSwarm.Proofs.Run.OwnBest
import ParticleSwarm.Proofs.Run.Relabelling
import ParticleSwarm.Proofs.Run.Retry
import ParticleSwarm.Proofs.Run.Schedule
import ParticleSwarm.Proofs.Run.Start
import ParticleSwarm.Proofs.Swarm.Forgetting
import ParticleSwarm.Proofs.Swarm.Mirroring
import ParticleSwarm.Proofs.Swarm.Passing
import ParticleSwarm.Proofs.Swarm.Scan
import ParticleSwarm.Tolerance
import ParticleSwarm.Proofs.Rounds
import ParticleSwarm.Proofs.Run.Succession
import ParticleSwarm.Proofs.Run.BestRun
import ParticleSwarm.Proofs.Benchmark.Spelling
import ParticleSwarm.Proofs.Command
import ParticleSwarm.Proofs.Swarm.Warnings
import ParticleSwarm.Proofs.Run.Log
