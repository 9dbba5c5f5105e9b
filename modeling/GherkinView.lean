import GherkinView.Script.Reading
import GherkinView.Gherkin.Telling
import GherkinView.Gherkin.Format
import GherkinView.Journal.Channels
import GherkinView.Preview
import GherkinView.Report
import GherkinView.File.Edit
import GherkinView.Number.Shortest
import GherkinView.Settings.Loading
import GherkinView.Main
import GherkinView.Proofs.Script.Depth
import GherkinView.Proofs.Script.Segment
import GherkinView.Proofs.Script.Retention
import GherkinView.Proofs.Script.Attachment
import GherkinView.Proofs.Script.Sequence
import GherkinView.Proofs.Sentence.Values
import GherkinView.Proofs.Gherkin.ReadBack
import GherkinView.Proofs.CommandLine.Outputs
import GherkinView.Proofs.CommandLine.Retained
import GherkinView.Proofs.Gherkin.Rows
import GherkinView.Proofs.Gherkin.SingleLines
import GherkinView.Proofs.Preview.Runs
import GherkinView.Proofs.Preview.Watch
import GherkinView.Proofs.Gherkin.PageFrame
import GherkinView.Proofs.Settings.Entries
import GherkinView.Proofs.Yaml.Keys
import GherkinView.Proofs.Settings.Layering
import GherkinView.Proofs.Settings.Expansion
import GherkinView.Proofs.Gherkin.Places
import GherkinView.Proofs.CommandLine.Start
import GherkinView.Proofs.CommandLine.Unreadable
import GherkinView.Proofs.Gherkin.Keywords
import GherkinView.Proofs.Script.Setups
import GherkinView.Proofs.Journal.Once
import GherkinView.Proofs.CommandLine.Confined
import GherkinView.Proofs.Script.OwnCode
import GherkinView.Proofs.Script.Labels
import GherkinView.Proofs.Script.Alike
import GherkinView.Proofs.Gherkin.WellFormed
import GherkinView.Proofs.Sentence.Splicing
import GherkinView.Proofs.Sentence.Shape
import GherkinView.Proofs.Gherkin.Actions
import GherkinView.Proofs.Sentence.Articles
import GherkinView.Proofs.Gherkin.Highlights
import GherkinView.Proofs.Settings.Reload
import GherkinView.Proofs.Sentence.Turns
import GherkinView.Proofs.File.Scripts
import GherkinView.Proofs.Gherkin.Faithful
import GherkinView.Proofs.CommandLine.Shown
import GherkinView.Proofs.CommandLine.Requests
