import EquityScreen.Field.Descriptor

/-!
# The catalog of fields

The fields a screen knows unless it is given others: what is stored of a stock, and the indicators computed from its bars.
-/

namespace EquityScreen.Catalog

/-- A stored text. -/
def text (name title description : String) : Descriptor :=
  ⟨name, title, description, .basic, .string, Operator.textual, none, none⟩

/-- A stored number with its measure. -/
def stored (name title description measure : String) : Descriptor :=
  ⟨name, title, description, .fundamental, .number, Operator.numeric, some measure, none⟩

/-- An indicator. -/
def indicator (name title description : String) (measure : Option String) : Descriptor :=
  ⟨name, title, description, .technical, .number, Operator.technical, measure, none⟩

/-- Texts of a stock. -/
def texts : List Descriptor := [
  text "symbol" "股票代码" "6-digit exchange code",
  text "name" "股票名称" "Company short name",
  text "industry" "所属行业" "Industry classification",
  text "area" "所属地区" "Registered region",
  text "market" "所属市场" "Market the symbol trades in"]

/-- Numbers of a stock. -/
def numbers : List Descriptor := [
  stored "total_mv" "总市值" "Total market capitalisation" "亿元",
  stored "circ_mv" "流通市值" "Free-float market capitalisation" "亿元",
  stored "pe" "市盈率" "Price to earnings" "倍",
  stored "pb" "市净率" "Price to book" "倍",
  stored "pe_ttm" "市盈率TTM" "Trailing twelve month price to earnings" "倍",
  stored "pb_mrq" "市净率MRQ" "Most recent quarter price to book" "倍",
  stored "roe" "净资产收益率" "Return on equity" "%",
  stored "turnover_rate" "换手率" "Daily turnover rate" "%",
  stored "volume_ratio" "量比" "Volume relative to the recent average" "倍",
  stored "open" "开盘价" "Latest open" "元",
  stored "high" "最高价" "Latest high" "元",
  stored "low" "最低价" "Latest low" "元",
  stored "close" "收盘价" "Latest close" "元",
  stored "pct_chg" "涨跌幅" "Latest change in percent" "%",
  stored "amount" "成交额" "Latest traded value" "元",
  stored "volume" "成交量" "Latest traded volume" "手"]

/-- Indicators of a series of bars. -/
def indicators : List Descriptor := [
  indicator "ma5" "5日均线" "5-day simple moving average" (some "元"),
  indicator "ma10" "10日均线" "10-day simple moving average" (some "元"),
  indicator "ma20" "20日均线" "20-day simple moving average" (some "元"),
  indicator "ma60" "60日均线" "60-day simple moving average" (some "元"),
  indicator "ema12" "12日指数均线" "12-day exponential moving average" (some "元"),
  indicator "ema26" "26日指数均线" "26-day exponential moving average" (some "元"),
  indicator "dif" "MACD DIF" "EMA12 - EMA26" none,
  indicator "dea" "MACD DEA" "9-day EMA of DIF" none,
  indicator "macd_hist" "MACD柱" "DIF - DEA" none,
  indicator "rsi6" "RSI(6)" "6-day relative strength index" none,
  indicator "rsi14" "RSI(14)" "14-day relative strength index" none,
  indicator "boll_mid" "布林中轨" "20-day Bollinger middle band" (some "元"),
  indicator "boll_upper" "布林上轨" "Middle band + 2 standard deviations" (some "元"),
  indicator "boll_lower" "布林下轨" "Middle band - 2 standard deviations" (some "元"),
  indicator "atr14" "ATR(14)" "14-day average true range" (some "元"),
  indicator "kdj_k" "KDJ-K" "Stochastic K (9,3,3)" none,
  indicator "kdj_d" "KDJ-D" "Stochastic D (9,3,3)" none,
  indicator "kdj_j" "KDJ-J" "3K - 2D" none]

/-- Every field, in the order they are listed. -/
def all : List Descriptor := texts ++ numbers ++ indicators

end EquityScreen.Catalog
