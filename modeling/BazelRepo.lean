import BazelRepo.BookSmartz.Application
import BazelRepo.BookSmartz.ProfileExactlyOnce
import BazelRepo.BookSmartz.Progress
import BazelRepo.BookSmartz.ProviderRequests
import BazelRepo.BookSmartz.StoreContract
import BazelRepo.Coverage.AdapterOrder
import BazelRepo.Coverage.NamedSets
import BazelRepo.Coverage.Naturals
import BazelRepo.Coverage.Reconciliation
import BazelRepo.Coverage.SourceClosure
import BazelRepo.HearthstoneSimulator.AuraRefresh
import BazelRepo.HearthstoneSimulator.TriggerRuns
import BazelRepo.HostedReview.Reviews
import BazelRepo.KafkaCalculator.DeclarationOrder
import BazelRepo.KafkaCalculator.Identity
import BazelRepo.KafkaCalculator.Indexes
import BazelRepo.KafkaCalculator.LeastOrder
import BazelRepo.MergeVerification.Rearrangement
import BazelRepo.Mindreadr.Ids
import BazelRepo.Mindreadr.Names
import BazelRepo.Nicknamer2.Paging
import BazelRepo.PinyinComposer.Annotations
import BazelRepo.PinyinComposer.Conversion
import BazelRepo.PinyinComposer.Documents
import BazelRepo.PoolReceipt.Success
import BazelRepo.PredictionBot.AnnouncementOrder
import BazelRepo.PredictionBot.Finality
import BazelRepo.PredictionBot.GrantPaths
import BazelRepo.PredictionBot.LargestRemainder
import BazelRepo.PredictionBot.PositionPages
import BazelRepo.PredictionBot.RenderedRows
import BazelRepo.Predix.Payouts
import BazelRepo.TicketPublication.Interrupted
import BazelRepo.TicketPublication.Markers
