import Dashboards.Proofs.Decimal.Tenfold
import Dashboards.Proofs.Document.Configs
import Dashboards.Proofs.Query.Forms
import Dashboards.Proofs.Query.Spelling
import Dashboards.Proofs.Record.Objects
import Dashboards.Proofs.Schema.Compatibility
import Dashboards.Proofs.Schema.Detection
import Dashboards.Proofs.Schema.Missing
import Dashboards.Proofs.Schema.Queries
import Dashboards.Proofs.Schema.Report
import Dashboards.Proofs.Schema.Saving
import Dashboards.Proofs.Schema.Staging
import Dashboards.Proofs.Schema.Touches
import Dashboards.Proofs.Schema.Versions
import Dashboards.Proofs.Schema.Visits
import Dashboards.Proofs.Statement.Grouping
import Dashboards.Proofs.Statement.Lines
import Dashboards.Proofs.Statement.Quantiles
import Dashboards.Proofs.Statement.Unambiguous
import Dashboards.Proofs.Yaml.Queries
import Dashboards.Schema.Migration
import Dashboards.Statement.Build
import Dashboards.Proofs.Statement.Quoting
