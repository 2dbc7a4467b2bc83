import SuperMew.Documents.Deletion
import SuperMew.Runs.Promotion
import SuperMew.Runs.Resumption
import SuperMew.Runs.Handover
import SuperMew.Events.Delivery
import SuperMew.Runs.Locks
import SuperMew.Documents.Immediate
import SuperMew.Publication.Exactness
import SuperMew.Indexing.Listing
import SuperMew.Threads.Counters
import SuperMew.Auth.Replay
import SuperMew.SqlAssistant.Isolation
import SuperMew.WebResearch.Requests
import SuperMew.Skills.Activation
import SuperMew.Evaluation.Survival
import SuperMew.Evaluation.Regression
import SuperMew.Rag.FaultReport
import SuperMew.Capabilities.Versions
import SuperMew.Frontend.Agreement
import SuperMew.Frontend.Cancelling
import SuperMew.Frontend.SessionRuns
import SuperMew.Threads.Retry
