import OperatorScript.Command.Basic
import OperatorScript.Number.Amount
import OperatorScript.Number.Text

/-!
The command that turns amounts into numbers.
-/

set_option autoImplicit false
set_option relaxedAutoImplicit false

namespace OperatorScript.Command

open Json Procedure

def moneyOf (record : Record) : Binary64 :=
  ((record.get? "money").bind Value.number?).getD (.zero false)

def num : Command where
  name := "num"
  manual :=
    Text.join "\n"
      ["Turns shorthand amounts into plain numbers.",
        "Usage: num:: <amount> or num::<amount>",
        "Accepts suffixes (5k, 2.5m, 5T, 1qa), commas, percentages of your money (50%),",
        "and all, allin, max or half. Anything unreadable gives NaN."]
  body c := do
    let record ← queryRecord .users c.author "money"
    let amount := (c.args.arg? 0).getD c.target
    if amount.isEmpty then stop "0" .missingOrInvalidArgs
    else stop (Amount.read amount (moneyOf record)).text .success

end OperatorScript.Command
