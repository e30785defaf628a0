import Negotiation.Agent.Schedule
import Negotiation.Agent.Script
import Negotiation.Forms.Agent
import Negotiation.Main
import Negotiation.Proofs.Agent.Routing
import Negotiation.Proofs.Correspondence.Skipping
import Negotiation.Proofs.Dialogue.Sequence
import Negotiation.Proofs.Market.Outcome
import Negotiation.Proofs.Parley.Agreement
import Negotiation.Proofs.Parley.Mixing
import Negotiation.Proofs.Table.Upkeep
import Negotiation.Proofs.Agent.Reachable
import Negotiation.Proofs.Agent.Refusal
import Negotiation.Proofs.Exchange.Confinement
import Negotiation.Proofs.Table.Separation
import Negotiation.Proofs.Table.Retention
import Negotiation.Proofs.Weather.Offers
import Negotiation.Proofs.Correspondence.Addressing
import Negotiation.Proofs.Exchange.Offering
import Negotiation.Proofs.Exchange.Delivery
import Negotiation.Proofs.Agent.Bounds
import Negotiation.Proofs.Agent.Record
import Negotiation.Proofs.Agent.Verdicts
import Negotiation.Proofs.Weather.Answers
import Negotiation.Proofs.Table.Sweeping
import Negotiation.Proofs.Weather.Decision
import Negotiation.Proofs.Forms.Lossless
import Negotiation.Proofs.Text.Parts
import Negotiation.Proofs.Route.Reading
import Negotiation.Proofs.Route.Address
import Negotiation.Proofs.Agent.Opening
import Negotiation.Proofs.Exchange.Registration
import Negotiation.Proofs.Exchange.Searching
import Negotiation.Proofs.Service.Conforming
import Negotiation.Proofs.Agent.Order
import Negotiation.Proofs.Weather.Ending
import Negotiation.Proofs.Market.Runnable
