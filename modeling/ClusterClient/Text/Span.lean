import ClusterClient.Text.Numeral
/-!
Spans of time in whole milliseconds, written with the largest unit that leaves
a whole part.
-/
namespace ClusterClient.Text

/-- The three digits of a fraction of a thousand, without zeros at the end. -/
def thousandths (ms : Nat) : List Char :=
  let ds := decimal ms
  ((List.replicate (3 - ds.length) '0' ++ ds).reverse.dropWhile (· == '0')).reverse

def span (ms : Nat) : String :=
  if ms = 0 then "0ns"
  else if ms < 1000 then String.ofList (decimal ms) ++ "ms"
  else
    let whole := decimal (ms / 1000)
    let rest := ms % 1000
    String.ofList (if rest = 0 then whole else whole ++ '.' :: thousandths rest) ++ "s"

end ClusterClient.Text
