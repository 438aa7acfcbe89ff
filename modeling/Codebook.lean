import Codebook.Main
import Codebook.Files.Disk
import Codebook.Proofs.ActorClusters
import Codebook.Proofs.LongestMatch
import Codebook.Proofs.SnapshotRoundTrip
import Codebook.Proofs.SentenceSplits
import Codebook.Proofs.PatternAnchors
import Codebook.Proofs.TrieNodes
import Codebook.Proofs.VerbBlocks
import Codebook.Proofs.VerbIntegrity
import Codebook.Proofs.PhraseLookup
import Codebook.Proofs.CalendarOrder
import Codebook.Proofs.SkippedLines
import Codebook.Proofs.ActorFiles
import Codebook.Proofs.TrieArena
import Codebook.Proofs.ActorPhrases
import Codebook.Proofs.AcceptedLines
import Codebook.Proofs.WrittenPeriods
import Codebook.Proofs.CodesOnDays
import Codebook.Proofs.UpperCase
import Codebook.Proofs.PhraseWords
import Codebook.Proofs.AgentLines
import Codebook.Proofs.LeftoverMarks
import Codebook.Proofs.TrieListing
import Codebook.Proofs.LinesInOrder
import Codebook.Proofs.TextLines
import Codebook.Proofs.GrowingFiles
import Codebook.Proofs.LexiconFiles
import Codebook.Proofs.SentenceGaps
import Codebook.Proofs.SentenceSlices
import Codebook.Proofs.SentenceCursor
import Codebook.Proofs.SentenceAlone
import Codebook.Proofs.SentenceFaults
import Codebook.Proofs.ReadingOnDemand
import Codebook.Proofs.ResolvedPatterns
import Codebook.Proofs.InlineComments
import Codebook.Proofs.OpenComments
import Codebook.Proofs.CleanedLines
import Codebook.Proofs.SurfaceForms
import Codebook.Proofs.WordRuns
import Codebook.Proofs.PatternStorage
import Codebook.Proofs.InflectedWords
import Codebook.Proofs.MultiWordForms
import Codebook.Proofs.FormWords
import Codebook.Proofs.SynsetMembers
import Codebook.Proofs.PhraseLinks
import Codebook.Proofs.AgentPlurals
import Codebook.Proofs.MarkerExpansion
import Codebook.Proofs.ActorRoots
import Codebook.Proofs.RestrictionForms
import Codebook.Proofs.DateTexts
import Codebook.Proofs.TruncatedSnapshots
import Codebook.Proofs.PrintedSentences
import Codebook.Proofs.UnfailingCompilers
import Codebook.Proofs.PhraseLayout
import Codebook.Proofs.ShownPaths
import Codebook.Proofs.ShownCodes
import Codebook.Proofs.TrieGrowth
